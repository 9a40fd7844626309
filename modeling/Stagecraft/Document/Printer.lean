import Stagecraft.Document.Node

/-!
This module contains the writing of documents as text, on one line or with one part on a line.
A document that could not be made out completely is written as far as it could.
-/

namespace Stagecraft

/--
A character within quoted text of a document. Quotes, backslashes and controls are escaped.
-/
def escapedChar (c : Char) : String :=
  match c with
  | '"' => "\\\""
  | '\\' => "\\\\"
  | '\x08' => "\\b"
  | '\x0c' => "\\f"
  | '\n' => "\\n"
  | '\r' => "\\r"
  | '\t' => "\\t"
  | c =>
    if c.toNat < 0x20 then
      (if c.toNat < 0x10 then "\\u000" else "\\u00") ++ hexadecimal c.toNat
    else
      String.singleton c

def escapedText (s : String) : String := "\"" ++ String.join (s.toList.map escapedChar) ++ "\""

def Leaf.print : Leaf → String
  | .null => "null"
  | .flag true => "true"
  | .flag false => "false"
  | .number n => n.text
  | .text s => escapedText s
  | .broken .. => ""

/--
The two ways to write a document.
-/
inductive Spacing where
  | compact
  | indented
  deriving DecidableEq, Repr

namespace Spacing

/--
What stands in front of a part of a container, or of its end, inside of `depth` containers.
-/
def lineBreak (spacing : Spacing) (depth : Nat) : String :=
  match spacing with
  | compact => ""
  | indented => "\n" ++ String.ofList (List.replicate (2 * depth) ' ')

def colon : Spacing → String
  | compact => ":"
  | indented => ": "

end Spacing

mutual

/--
The text of a document that stands inside of `depth` containers.
-/
def Node.printAt (spacing : Spacing) (depth : Nat) : Node → String
  | .leaf value => value.print
  | .array items closed =>
    let parts := Node.printItems spacing (depth + 1) items
    let last := if items.isEmpty then "" else spacing.lineBreak depth
    "[" ++ parts ++ if closed then last ++ "]" else ""
  | .object members closed =>
    let parts := Node.printMembers spacing (depth + 1) members
    let last := if members.isEmpty then "" else spacing.lineBreak depth
    "\x7b" ++ parts ++ if closed then last ++ "\x7d" else ""
  | .missing _ => ""

def Node.printItems (spacing : Spacing) (depth : Nat) : List Node → String
  | [] => ""
  | item :: rest =>
    let comma := if rest.isEmpty then "" else ","
    spacing.lineBreak depth ++ item.printAt spacing depth ++ comma ++
      Node.printItems spacing depth rest

def Node.printMembers (spacing : Spacing) (depth : Nat) : List (Node × Node) → String
  | [] => ""
  | (key, value) :: rest =>
    let comma := if rest.isEmpty then "" else ","
    spacing.lineBreak depth ++ key.printAt spacing depth ++ spacing.colon ++
      value.printAt spacing depth ++ comma ++ Node.printMembers spacing depth rest

end

def Node.print (node : Node) (spacing : Spacing := .compact) : String := node.printAt spacing 0

def Value.print (value : Value) : String := (Node.ofValue value).print

end Stagecraft
