import Stagecraft.Action.Registry
import Stagecraft.Proofs.Registration.FirstCome
import Stagecraft.Proofs.Widget.Making
import Stagecraft.Stage.Rehearsal

/-!
This module contains what a registry of actions and a factory of widgets answer to a request,
whatever they were asked before. Both go by what was registered so far: a name belongs to whoever
registered first under it, until the registry is cleared.
-/

namespace Stagecraft

namespace Registry

variable {ω σ : Type}

inductive Request (ω σ : Type) where
  | register (name : String) (action : Action ω σ)
  | find (name : String)
  | contains (name : String)
  | names
  | size
  | clear

inductive Reply (ω σ : Type) where
  | registered
  | found (action : Action ω σ)
  | contained (known : Bool)
  | named (names : List String)
  | sized (size : Nat)
  | cleared
  | failed (error : RegistryError)

/--
The answer to a request, and the registry after it.
-/
def serve (r : Registry ω σ) : Request ω σ → Reply ω σ × Registry ω σ
  | .register name action =>
    match r.register name action with
    | .ok next => (.registered, next)
    | .error error => (.failed error, r)
  | .find name =>
    match r.find name with
    | .ok action => (.found action, r)
    | .error error => (.failed error, r)
  | .contains name => (.contained (r.contains name), r)
  | .names => (.named r.names, r)
  | .size => (.sized r.size, r)
  | .clear => (.cleared, r.clear)

def after (r : Registry ω σ) (requests : List (Request ω σ)) : Registry ω σ :=
  requests.foldl (fun r request => (r.serve request).2) r

namespace Request

def record (registered : List (String × Action ω σ)) : Request ω σ → List (String × Action ω σ)
  | .register name action => registered ++ [(name, action)]
  | .clear => []
  | .find _ | .contains _ | .names | .size => registered

/--
What some requests registered since the last of them that clears, in order, and whether it was
accepted or not. If none of them clears, what was there before them comes first.
-/
def recordAll (registered : List (String × Action ω σ)) (requests : List (Request ω σ)) :
    List (String × Action ω σ) :=
  requests.foldl record registered

/--
The right answer to a request, by what was registered before.
-/
inductive Answers (registered : List (String × Action ω σ)) : Request ω σ → Reply ω σ → Prop where
  | accepted {name : String} {action : Action ω σ} (free : registered.lookup name = none) :
    Answers registered (.register name action) .registered
  | refused {name : String} {action first : Action ω σ}
    (taken : registered.lookup name = some first) :
    Answers registered (.register name action) (.failed (.alreadyRegistered name))
  | found {name : String} {first : Action ω σ} (known : registered.lookup name = some first) :
    Answers registered (.find name) (.found first)
  | missing {name : String} {names : List String} (unknown : registered.lookup name = none)
    (all : IsDirectory registered names) :
    Answers registered (.find name) (.failed (.notRegistered name names))
  | contained (name : String) :
    Answers registered (.contains name) (.contained (registered.lookup name).isSome)
  | named {names : List String} (all : IsDirectory registered names) :
    Answers registered .names (.named names)
  | sized {names : List String} (all : IsDirectory registered names) :
    Answers registered .size (.sized names.length)
  | cleared : Answers registered .clear .cleared

end Request

variable {r : Registry ω σ} {registered : List (String × Action ω σ)}

theorem serve_register (r : Registry ω σ) (name : String) (action : Action ω σ) :
    r.serve (.register name action) =
      if r.actions.contains name then (.failed (.alreadyRegistered name), r)
      else (.registered, { actions := r.actions.insert name action }) := by
  unfold serve register
  dsimp only
  cases r.actions.contains name with
  | true => rfl
  | false => rfl

theorem serve_find (r : Registry ω σ) (name : String) :
    r.serve (.find name) =
      (match r.actions.get? name with
        | some action => .found action
        | none => .failed (.notRegistered name r.names), r) := by
  unfold serve find
  dsimp only
  cases r.actions.get? name with
  | none => rfl
  | some => rfl

theorem keepsFirst_serve (h : r.actions.KeepsFirst registered) (request : Request ω σ) :
    (r.serve request).2.actions.KeepsFirst (request.record registered) := by
  cases request with
  | register name action =>
    rw [serve_register]
    split
    next taken => exact h.refuse taken action
    next free => exact h.insert (eq_false_of_ne_true free) action
  | find name =>
    rw [serve_find]
    exact h
  | contains | names | size => exact h
  | clear => exact Table.keepsFirst_empty

theorem keepsFirst_after (h : r.actions.KeepsFirst registered) (requests : List (Request ω σ)) :
    (r.after requests).actions.KeepsFirst (Request.recordAll registered requests) := by
  unfold after Request.recordAll
  induction requests generalizing r registered with
  | nil => exact h
  | cons request rest ih => exact ih (keepsFirst_serve h request)

theorem answers_serve (h : r.actions.KeepsFirst registered) (request : Request ω σ) :
    request.Answers registered (r.serve request).1 := by
  cases request with
  | register name action =>
    rw [serve_register, h.contains_eq]
    cases first : registered.lookup name with
    | none => exact .accepted first
    | some => exact .refused first
  | find name =>
    rw [serve_find, h name]
    cases first : registered.lookup name with
    | none => exact .missing first h.isDirectory_keys
    | some => exact .found first
  | contains name =>
    change Request.Answers _ _ (.contained (r.actions.contains name))
    rw [h.contains_eq]
    exact .contained name
  | names => exact .named h.isDirectory_keys
  | size =>
    have counted : r.size = r.actions.keys.length := (List.length_map _).symm
    change Request.Answers _ _ (.sized r.size)
    rw [counted]
    exact .sized h.isDirectory_keys
  | clear => exact .cleared

theorem serve_of_failed (r : Registry ω σ) {request : Request ω σ} {error : RegistryError}
    (h : (r.serve request).1 = .failed error) : (r.serve request).2 = r := by
  cases request with
  | register name action =>
    rw [serve_register] at h ⊢
    split at h
    next taken => rw [if_pos taken]
    · cases h
  | find name => rw [serve_find]
  | contains | names | size | clear => cases h

end Registry

namespace Factory

variable {ω : Type}

inductive Request (ω : Type) where
  | register (kind : String) (make : Constructor ω)
  | build (name kind : String) (params : Table Value)
  | kinds

inductive Reply (ω : Type) where
  | registered
  | built (widget : ω)
  | named (kinds : List String)
  | failed (error : Error)

/--
The answer to a request, and the factory after it.
-/
def serve (factory : Factory ω) : Request ω → Reply ω × Factory ω
  | .register kind make =>
    match factory.register kind make with
    | .ok next => (.registered, next)
    | .error error => (.failed error, factory)
  | .build name kind params =>
    match factory.build name kind params with
    | .ok widget => (.built widget, factory)
    | .error error => (.failed error, factory)
  | .kinds => (.named factory.kinds, factory)

def after (factory : Factory ω) (requests : List (Request ω)) : Factory ω :=
  requests.foldl (fun factory request => (factory.serve request).2) factory

namespace Request

def record (registered : List (String × Constructor ω)) :
    Request ω → List (String × Constructor ω)
  | .register kind make => registered ++ [(kind, make)]
  | .build .. | .kinds => registered

/--
What some requests registered, in order, and whether it was accepted or not, after what was there
before them.
-/
def recordAll (registered : List (String × Constructor ω)) (requests : List (Request ω)) :
    List (String × Constructor ω) :=
  requests.foldl record registered

/--
The right answer to a request, by what was registered before.
-/
inductive Answers (registered : List (String × Constructor ω)) : Request ω → Reply ω → Prop where
  | accepted {kind : String} {make : Constructor ω} (free : registered.lookup kind = none) :
    Answers registered (.register kind make) .registered
  | refused {kind : String} {make first : Constructor ω}
    (taken : registered.lookup kind = some first) :
    Answers registered (.register kind make) (.failed (.config (.typeRegistered kind)))
  | built {name kind : String} {params : Table Value} {first : Constructor ω} {widget : ω}
    (known : registered.lookup kind = some first) (made : first name params = .ok widget) :
    Answers registered (.build name kind params) (.built widget)
  | unmade {name kind : String} {params : Table Value} {first : Constructor ω} {error : Error}
    (known : registered.lookup kind = some first) (failed : first name params = .error error) :
    Answers registered (.build name kind params) (.failed (.ofMaking name error))
  | unknown {name kind : String} {params : Table Value}
    (unknown : registered.lookup kind = none) :
    Answers registered (.build name kind params)
      (.failed (.instantiation name s!"unknown widget type `{kind}`"))
  | named {kinds : List String} (all : IsDirectory registered kinds) :
    Answers registered .kinds (.named kinds)

end Request

variable {factory : Factory ω} {registered : List (String × Constructor ω)}

theorem serve_register (factory : Factory ω) (kind : String) (make : Constructor ω) :
    factory.serve (.register kind make) =
      if factory.constructors.contains kind then
        (.failed (.config (.typeRegistered kind)), factory)
      else (.registered, { constructors := factory.constructors.insert kind make }) := by
  unfold serve register
  dsimp only
  cases factory.constructors.contains kind with
  | true => rfl
  | false => rfl

theorem serve_build (factory : Factory ω) (name kind : String) (params : Table Value) :
    factory.serve (.build name kind params) =
      (match factory.build name kind params with
        | .ok widget => .built widget
        | .error error => .failed error, factory) := by
  unfold serve
  dsimp only
  cases factory.build name kind params with
  | ok => rfl
  | error => rfl

theorem keepsFirst_serve (h : factory.constructors.KeepsFirst registered) (request : Request ω) :
    (factory.serve request).2.constructors.KeepsFirst (request.record registered) := by
  cases request with
  | register kind make =>
    rw [serve_register]
    split
    next taken => exact h.refuse taken make
    next free => exact h.insert (eq_false_of_ne_true free) make
  | build name kind params =>
    rw [serve_build]
    exact h
  | kinds => exact h

theorem keepsFirst_after (h : factory.constructors.KeepsFirst registered)
    (requests : List (Request ω)) :
    (factory.after requests).constructors.KeepsFirst (Request.recordAll registered requests) := by
  unfold after Request.recordAll
  induction requests generalizing factory registered with
  | nil => exact h
  | cons request rest ih => exact ih (keepsFirst_serve h request)

theorem answers_serve (h : factory.constructors.KeepsFirst registered) (request : Request ω) :
    request.Answers registered (factory.serve request).1 := by
  cases request with
  | register kind make =>
    rw [serve_register, h.contains_eq]
    cases first : registered.lookup kind with
    | none => exact .accepted first
    | some => exact .refused first
  | build name kind params =>
    have same := h kind
    rw [serve_build]
    cases first : registered.lookup kind with
    | none =>
      rw [build_of_unregistered (same.trans first)]
      exact .unknown first
    | some make =>
      rw [build_of_registered (same.trans first)]
      cases result : make name params with
      | ok => exact .built first result
      | error => exact .unmade first result
  | kinds => exact .named h.isDirectory_keys

theorem serve_of_failed (factory : Factory ω) {request : Request ω} {error : Error}
    (h : (factory.serve request).1 = .failed error) : (factory.serve request).2 = factory := by
  cases request with
  | register kind make =>
    rw [serve_register] at h ⊢
    split at h
    next taken => rw [if_pos taken]
    · cases h
  | build name kind params => rw [serve_build]
  | kinds => cases h

end Factory

/--
Whatever a registry of actions or a factory of widgets was asked, its next answer is the right one
by what was registered so far: a name is free as long as nothing was registered under it, and then
stands for what was registered first. What fails changes nothing.
-/
theorem first_come_first_served {ω σ : Type} (start : Registry ω σ)
    (requests : List (Registry.Request ω σ)) (stock : Factory ω)
    (orders : List (Factory.Request ω)) :
    let registry := start.after requests
    let factory := stock.after orders
    (∀ request : Registry.Request ω σ,
      request.Answers (Registry.Request.recordAll start.actions.toList requests)
        (registry.serve request).1 ∧
      ∀ error, (registry.serve request).1 = .failed error → (registry.serve request).2 = registry) ∧
    ∀ order : Factory.Request ω,
      order.Answers (Factory.Request.recordAll stock.constructors.toList orders)
        (factory.serve order).1 ∧
      ∀ error, (factory.serve order).1 = .failed error → (factory.serve order).2 = factory := by
  intro registry factory
  constructor
  · intro request
    have kept := Registry.keepsFirst_after (Table.keepsFirst_toList start.actions) requests
    exact ⟨Registry.answers_serve kept request, fun error => Registry.serve_of_failed _⟩
  · intro order
    have kept := Factory.keepsFirst_after (Table.keepsFirst_toList stock.constructors) orders
    exact ⟨Factory.answers_serve kept order, fun error => Factory.serve_of_failed _⟩

/--
Of two actions that are registered under one name, the first is found and the second is refused,
although the second had been registered under it before the registry was cleared. What the registry
began with is gone, too. Grids are made by the stock constructor, whatever comes after it.
-/
theorem first_come_first_served_of_rivals :
    let first : Action StockWidget Rehearsal := Builtin.outro.action
    let second : Action StockWidget Rehearsal := Builtin.wait.action
    let registry := Registry.builtins.after
      [.register "finale" second, .clear, .register "finale" first, .register "finale" second]
    let square : Constructor StockWidget := fun name _ => .ok (.stack { name })
    let factory := Factory.stock.after [.register "grid" square]
    registry.serve (.register "finale" second) =
      (.failed (.alreadyRegistered "finale"), registry) ∧
    (registry.serve (.find "finale")).1 = .found first ∧
    (registry.serve (.find "wait")).1 = .failed (.notRegistered "wait" ["finale"]) ∧
    (factory.serve (.register "grid" square)).2 = factory ∧
    ∃ grid, (factory.serve (.build "board" "grid" .empty)).1 = .built (.grid grid) := by
  intro first second registry square factory
  have served := first_come_first_served Registry.builtins
    [.register "finale" second, .clear, .register "finale" first, .register "finale" second]
    .stock [.register "grid" square]
  have refused := (served.1 (.register "finale" second)).2 _ rfl
  have known := (served.2 (.register "grid" square)).2 _ rfl
  exact ⟨Prod.ext rfl refused, rfl, rfl, known, _, rfl⟩

end Stagecraft
