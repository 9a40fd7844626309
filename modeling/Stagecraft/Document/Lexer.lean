import Stagecraft.Document.Numeral

/-!
This module contains the division of text into tokens. The text is read one character at a time;
a `Mode` is what is known of the token that the characters so far have begun. Reading stops at the
first character that nobody can pass over.
-/

namespace Stagecraft

namespace Lexer

/--
Where the reading of quoted text stands. In an escape by number, `bytes` of the four bytes have been
read; `value` is their value as long as they are digits of base sixteen.
-/
inductive Place where
  | plain
  | escape
  | code (bytes : Nat) (value : Option Nat)
  | pairSlash
  | pairMark

/--
The part of a quoted text that has been read: its characters, the last one first, the first half of
a surrogate pair that waits for the second, and the first thing wrong with it that a reader may
still pass over.
-/
structure Quotation where
  place : Place := .plain
  reversed : List Char := []
  lead : Option Nat := none
  damage : Option Fault := none

def hexValue? (c : Char) : Option Nat :=
  if c.isDigit then some (c.toNat - '0'.toNat)
  else if 'a' ≤ c ∧ c ≤ 'f' then some (c.toNat - 'a'.toNat + 10)
  else if 'A' ≤ c ∧ c ≤ 'F' then some (c.toNat - 'A'.toNat + 10)
  else none

def escaped? (c : Char) : Option Char :=
  match c with
  | '"' => some '"'
  | '\\' => some '\\'
  | '/' => some '/'
  | 'b' => some '\x08'
  | 'f' => some '\x0c'
  | 'n' => some '\n'
  | 'r' => some '\r'
  | 't' => some '\t'
  | _ => none

def isLeadSurrogate (code : Nat) : Bool := 0xD800 ≤ code && code ≤ 0xDBFF

def isTrailSurrogate (code : Nat) : Bool := 0xDC00 ≤ code && code ≤ 0xDFFF

/--
What has been read of the token that the text is in the middle of.
-/
inductive Mode where
  | between
  | word (next : Char) (rest : List Char) (leaf : Leaf)
  | numeral (n : Numeral)
  | quotation (q : Quotation)
  | stopped

namespace Quotation

def push (q : Quotation) (c : Char) : Quotation :=
  { q with place := .plain, reversed := c :: q.reversed }

def harm (q : Quotation) (flaw : Flaw) : Quotation :=
  { q with place := .plain, lead := none, damage := some (.malformed flaw) }

def stop (q : Quotation) (fault : Fault) : Mode × List Token :=
  (.stopped, [.leaf (.broken true (q.damage.getD fault) (some fault))])

def close (q : Quotation) : Mode × List Token :=
  match q.damage with
  | none => (.between, [.leaf (.text (String.ofList q.reversed.reverse))])
  | some fault => (.between, [.leaf (.broken true fault none)])

def plain (q : Quotation) (c : Char) : Mode × List Token :=
  if c = '"' then q.close
  else if c = '\\' then (.quotation { q with place := .escape }, [])
  else if c.toNat < 0x20 then q.stop (.malformed .controlCharacter)
  else (.quotation (q.push c), [])

def escape (q : Quotation) (c : Char) : Mode × List Token :=
  match escaped? c with
  | some c => (.quotation (q.push c), [])
  | none =>
    if c = 'u' then
      (.quotation { q with place := .code 0 (some 0) }, [])
    else
      q.stop (.malformed .badEscape)

/--
An escape by number that is complete. Two surrogates in order are one character; a surrogate without
its partner is damage.
-/
def resolve (q : Quotation) (code : Nat) : Quotation :=
  if q.damage.isSome then
    { q with place := .plain }
  else match q.lead with
    | none =>
      if isLeadSurrogate code then { q with place := .pairSlash, lead := some code }
      else if isTrailSurrogate code then q.harm .loneSurrogate
      else q.push (Char.ofNat code)
    | some lead =>
      if isTrailSurrogate code then
        let q := { q with lead := none }
        q.push (Char.ofNat (0x10000 + (lead - 0xD800) * 0x400 + (code - 0xDC00)))
      else
        q.harm .loneSurrogate

def code (q : Quotation) (bytes : Nat) (value : Option Nat) (c : Char) : Mode × List Token :=
  let value := match value, hexValue? c with
    | some value, some digit => some (16 * value + digit)
    | _, _ => none
  let bytes := bytes + c.utf8Size
  if bytes < 4 then
    (.quotation { q with place := .code bytes value }, [])
  else match value with
    | some code => (.quotation (q.resolve code), [])
    | none => q.stop (.malformed .badEscape)

def step (q : Quotation) (c : Char) : Mode × List Token :=
  match q.place with
  | .plain => q.plain c
  | .escape => q.escape c
  | .code bytes value => q.code bytes value c
  | .pairSlash =>
    if c = '\\' then
      (.quotation { q with place := .pairMark }, [])
    else
      (q.harm .unpairedSurrogate).plain c
  | .pairMark =>
    if c = 'u' then
      (.quotation { q with place := .code 0 (some 0) }, [])
    else
      (q.harm .unpairedSurrogate).escape c

end Quotation

def isBlank (c : Char) : Bool := c = ' ' || c = '\n' || c = '\t' || c = '\r'

def halt (read skip : Fault) : Mode × List Token :=
  (.stopped, [.leaf (.broken false read (some skip))])

def start (c : Char) : Mode × List Token :=
  if isBlank c then (.between, [])
  else if c = '[' then (.between, [.openArray])
  else if c = ']' then (.between, [.closeArray])
  else if c = '{' then (.between, [.openObject])
  else if c = '}' then (.between, [.closeObject])
  else if c = ',' then (.between, [.comma])
  else if c = ':' then (.between, [.colon])
  else if c = '"' then (.quotation {}, [])
  else if c = 'n' then (.word 'u' ['l', 'l'] .null, [])
  else if c = 't' then (.word 'r' ['u', 'e'] (.flag true), [])
  else if c = 'f' then (.word 'a' ['l', 's', 'e'] (.flag false), [])
  else if c = '-' then (.numeral { phase := .sign, negative := true }, [])
  else if c = '0' then (.numeral { phase := .zero, negative := false }, [])
  else if c.isDigit then
    (.numeral { phase := .whole, negative := false, significand := digitValue c }, [])
  else (.stopped, [.stray])

/--
Reads one character: what is known after it, and the tokens that it ends or makes up.
-/
def Mode.step (mode : Mode) (c : Char) : Mode × List Token :=
  match mode with
  | .between => start c
  | .word next rest leaf =>
    if c = next then
      match rest with
      | [] => (.between, [.leaf leaf])
      | next :: rest => (.word next rest leaf, [])
    else
      halt (.malformed .badWord) (.malformed .badWord)
  | .numeral n =>
    match n.next? c with
    | some n => (.numeral n, [])
    | none =>
      if n.endsBefore c then
        let (mode, tokens) := start c
        (mode, .leaf n.leaf :: tokens)
      else
        halt (.malformed .badNumber) (.malformed .badNumber)
  | .quotation q => q.step c
  | .stopped => (.stopped, [])

def Mode.close : Mode → List Token
  | .between => []
  | .word .. => (halt (.truncated .value) (.truncated .value)).2
  | .numeral n =>
    if n.isComplete then
      [.leaf n.leaf]
    else
      (halt (.truncated .value) (.malformed .badNumber)).2
  | .quotation q => (q.stop (.truncated .text)).2
  | .stopped => []

def scan : Mode → List Char → List Token
  | mode, [] => mode.close
  | mode, c :: rest =>
    let (mode, tokens) := mode.step c
    tokens ++ scan mode rest

end Lexer

def Token.ofText (text : String) : List Token := Lexer.scan .between text.toList

end Stagecraft
