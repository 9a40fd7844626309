import Stagecraft.Document.Number
import Stagecraft.Text.Quoted

/-!
This module contains the reasons why a document cannot be read, and their wording. A text can be
malformed, it can end too early, or what it says can be something else than what was asked for.
-/

namespace Stagecraft

/--
A place where the text of a document breaks the rules.
-/
inductive Flaw where
  | noValue
  | noColon
  | noListSeparator
  | noMemberSeparator
  | badWord
  | badEscape
  | badNumber
  | numberTooLarge
  | controlCharacter
  | badKey
  | loneSurrogate
  | unpairedSurrogate
  | trailingComma
  | trailingText
  | tooDeep
  deriving DecidableEq, Repr

def Flaw.message : Flaw → String
  | noValue => "expected value"
  | noColon => "expected `:`"
  | noListSeparator => "expected `,` or `]`"
  | noMemberSeparator => "expected `,` or `\x7d`"
  | badWord => "expected ident"
  | badEscape => "invalid escape"
  | badNumber => "invalid number"
  | numberTooLarge => "number out of range"
  | controlCharacter => "control character (\\u0000-\\u001F) found while parsing a string"
  | badKey => "key must be a string"
  | loneSurrogate => "lone leading surrogate in hex escape"
  | unpairedSurrogate => "unexpected end of hex escape"
  | trailingComma => "trailing comma"
  | trailingText => "trailing characters"
  | tooDeep => "recursion limit exceeded"

/--
What a text ends within.
-/
inductive Span where
  | list
  | object
  | text
  | value
  deriving DecidableEq, Repr

def Span.message : Span → String
  | list => "EOF while parsing a list"
  | object => "EOF while parsing an object"
  | text => "EOF while parsing a string"
  | value => "EOF while parsing a value"

/--
What stands where something else was asked for.
-/
inductive Found where
  | null
  | flag (value : Bool)
  | number (value : Number)
  | text (value : String)
  | map
  | sequence

def Found.describe : Found → String
  | null => "null"
  | flag b => s!"boolean `{b}`"
  | number n => match n with
    | .integer .. => s!"integer `{n.text}`"
    | .real .. => s!"floating point `{n.text}`"
  | text s => "string " ++ quoted s
  | map => "map"
  | sequence => "sequence"

/--
A way in which the contents of a document differ from what was asked for.
-/
inductive Mismatch where
  | wrongType (found : Found) (expected : String)
  | wrongValue (found : Found) (expected : String)
  | unknownVariant (name : String) (expected : List String)
  | missingField (name : String)
  | duplicateField (name : String)
  | wrongLength (length : Nat) (expected : String)
  | noMatch (type : String)

def Mismatch.message : Mismatch → String
  | wrongType found expected => s!"invalid type: {found.describe}, expected {expected}"
  | wrongValue found expected => s!"invalid value: {found.describe}, expected {expected}"
  | unknownVariant name expected =>
    let names := String.intercalate ", " (expected.map fun name => s!"`{name}`")
    s!"unknown variant `{name}`, expected one of {names}"
  | missingField name => s!"missing field `{name}`"
  | duplicateField name => s!"duplicate field `{name}`"
  | wrongLength length expected => s!"invalid length {length}, expected {expected}"
  | noMatch type => s!"data did not match any variant of untagged enum {type}"

/--
Why a document cannot be read.
-/
inductive Fault where
  | malformed (flaw : Flaw)
  | truncated (span : Span)
  | mismatch (mismatch : Mismatch)

def Fault.message : Fault → String
  | malformed flaw => flaw.message
  | truncated span => span.message
  | mismatch m => m.message

/--
The names of `count` elements, as messages have them.
-/
def elements (count : Nat) : String :=
  if count = 1 then "1 element" else s!"{count} elements"

end Stagecraft
