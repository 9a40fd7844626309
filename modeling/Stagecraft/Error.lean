import Stagecraft.Document.Fault
import Stagecraft.RunState

/-!
This module contains everything that can go wrong while a show is prepared and played, and the
wording of it.
-/

namespace Stagecraft

/--
Something is wrong with the settings of a show, or with what they are applied to.
-/
inductive ConfigError where
  | notPositive (name : String) (value : Float)
  | unknownMode (mode : String) (known : List String)
  /--
  Bindings that name no method of a widget, each with the kind of event it is for.
  -/
  | malformedBindings (bindings : List (String × String))
  | typeRegistered (kind : String)
  | notPositiveInteger (parameter : String)
  | invalidDuration (action : String) (seconds : Float)
  | other (text : String)

/--
A widget refuses to be updated.
-/
inductive WidgetError where
  | noMethod (widget method : String)
  | noCell (widget : String)
  | outside (widget : String) (row col rows cols : UInt64)
  | queueFull (widget : String)
  | queueEmpty (widget : String)
  | stackEmpty (widget : String)
  | other (text : String)

/--
An action cannot be looked up, or not be registered.
-/
inductive RegistryError where
  | alreadyRegistered (name : String)
  | notRegistered (name : String) (available : List String)

/--
A storyboard cannot be played.
-/
inductive OrchestrationError where
  | unknownAction (action : String) (reason : RegistryError)
  | alreadyRun (state : RunState)

/--
An action cannot do its work.
-/
inductive ActionError where
  | noEngine
  | noAdapter
  | missingArgument (action argument : String)
  | eventsNotArray
  | other (text : String)

/--
What can go wrong while a show is prepared and played.
-/
inductive Error where
  | registry (cause : RegistryError)
  | config (cause : ConfigError)
  /--
  A widget of a scene could not be made.
  -/
  | instantiation (widget reason : String)
  | orchestration (cause : OrchestrationError)
  | widget (cause : WidgetError)
  | action (cause : ActionError)
  | missingFile
  | document (fault : Fault)

def Error.amount : Layout where
  positional _ := true
  whole := ""
  plus := ""
  tie := .up

def ConfigError.message : ConfigError → String
  | notPositive name value => s!"{name} must be a positive number, got {Error.amount.text value}"
  | unknownMode mode known =>
    let list := String.intercalate ", " known
    s!"unknown timing mode `{mode}` (known modes: {list})"
  | malformedBindings bindings =>
    let list := bindings.map fun (kind, label) => s!"{kind}: `{label}`"
    "malformed event bindings: " ++ String.intercalate ", " list
  | typeRegistered kind => s!"widget type `{kind}` is already registered"
  | notPositiveInteger parameter => s!"`{parameter}` must be a positive integer"
  | invalidDuration action seconds =>
    s!"beat `{action}` has an invalid duration {Error.amount.text seconds}"
  | other text => text

def WidgetError.message : WidgetError → String
  | noMethod widget method => s!"`{widget}` has no method `{method}`"
  | noCell widget => s!"`{widget}` expects payload `node` as [row, col]"
  | outside widget row col rows cols =>
    s!"cell ({row}, {col}) is outside the {rows}x{cols} grid `{widget}`"
  | queueFull widget => s!"queue `{widget}` is full"
  | queueEmpty widget => s!"queue `{widget}` is empty"
  | stackEmpty widget => s!"stack `{widget}` is empty"
  | other text => text

def RegistryError.message : RegistryError → String
  | alreadyRegistered name => s!"action `{name}` is already registered"
  | notRegistered name available =>
    let list := if available.isEmpty then "<none>" else String.intercalate ", " available
    s!"action `{name}` is not registered (available: {list})"

def OrchestrationError.message : OrchestrationError → String
  | unknownAction action reason => s!"cannot play beat `{action}`: {reason.message}"
  | alreadyRun state => s!"director cannot run from state {state.label}"

def ActionError.message : ActionError → String
  | noEngine => "no scene engine is attached to this run"
  | noAdapter => "`play_events` needs an algorithm adapter"
  | missingArgument action argument => s!"`{action}` needs a `{argument}` argument"
  | eventsNotArray => "scenario `events` must be an array of event objects"
  | other text => text

namespace Error

def detail : Error → String
  | registry cause => cause.message
  | config cause => cause.message
  | instantiation _ reason => reason
  | orchestration cause => cause.message
  | widget cause => cause.message
  | action cause => cause.message
  | missingFile => "No such file or directory"
  | document fault => fault.message

def message : Error → String
  | config cause => "config error: " ++ cause.message
  | instantiation name reason => s!"failed to instantiate widget `{name}`: {reason}"
  | orchestration cause => "orchestration error: " ++ cause.message
  | widget cause => "widget error: " ++ cause.message
  | missingFile => missingFile.detail ++ " (os error 2)"
  | error => error.detail

end Error

end Stagecraft
