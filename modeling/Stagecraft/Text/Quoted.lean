import Stagecraft.Text.Visible

/-!
This module contains quoted text as it appears in messages: what cannot be seen, and what would end
the quotation, is escaped.
-/

namespace Stagecraft

def hexadecimal (n : Nat) : String := String.ofList (Nat.toDigits 16 n)

def quotedChar (c : Char) : String :=
  if c = '"' then "\\\""
  else if c = '\\' then "\\\\"
  else if c = '\n' then "\\n"
  else if c = '\r' then "\\r"
  else if c = '\t' then "\\t"
  else if c = '\x00' then "\\0"
  else if isVisible c then String.singleton c
  else "\\u\x7b" ++ hexadecimal c.toNat ++ "\x7d"

def quoted (s : String) : String := "\"" ++ String.join (s.toList.map quotedChar) ++ "\""

def quotedList (texts : List String) : String :=
  "[" ++ String.intercalate ", " (texts.map quoted) ++ "]"

def quotedOption : Option String → String
  | none => "None"
  | some s => "Some(" ++ quoted s ++ ")"

def description (heading : String) (parts : List (String × String)) : String :=
  let list := parts.map fun (name, text) => name ++ ": " ++ text
  heading ++ " \x7b " ++ String.intercalate ", " list ++ " \x7d"

end Stagecraft
