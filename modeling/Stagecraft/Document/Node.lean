import Stagecraft.Document.Lexer
import Stagecraft.Document.Value

/-!
This module contains documents as trees. A tree shows a document as far as it could be made out:
what is missing or out of place is a part of the tree, where a reader that gets there finds it, so
that of two faults the one that comes first in the text is met first.
-/

namespace Stagecraft

/--
A document as far as it could be made out. The keys of members are nodes, because other things than
text can stand there. A container is `closed` if its end was found.
-/
inductive Node where
  | leaf (leaf : Leaf)
  | array (items : List Node) (closed : Bool)
  | object (members : List (Node × Node)) (closed : Bool)
  /--
  Nothing that could be read begins here.
  -/
  | missing (fault : Fault)

namespace Node

abbrev null : Node := .leaf .null

abbrev flag (b : Bool) : Node := .leaf (.flag b)

abbrev number (n : Number) : Node := .leaf (.number n)

abbrev text (s : String) : Node := .leaf (.text s)

/--
A double; those that are no finite numbers have no place in documents and become nothing.
-/
def ofFloat (x : Float) : Node :=
  if finite : x.isFinite = true then .number (.real x finite) else .null

/--
A container that the text is inside of, with what stands in front of the current place, the last
part first. In an object the key of the current member has been read.
-/
inductive Frame where
  | array (before : List Node)
  | object (before : List (Node × Node))
  | member (before : List (Node × Node)) (key : Node)

/--
What may come next. After `[` and `{` the container can end at once.
-/
inductive Position where
  | value
  | firstItem
  | firstKey
  | key
  | colon
  | separator
  deriving DecidableEq

/--
The state between two tokens: inside of some containers, the innermost first, or done with the
document. Nothing but the end of the text may follow a document.
-/
inductive State where
  | inside (position : Position) (frames : List Frame)
  | done (root : Node) (trailing : Bool)

/--
The document that has `node` at the current place and nothing after it.
-/
def unwind (node : Node) : List Frame → Node
  | [] => node
  | .array before :: frames => unwind (.array (node :: before).reverse false) frames
  | .object before :: frames => unwind (.object ((node, .missing (.truncated .object)) ::
      before).reverse false) frames
  | .member before key :: frames => unwind (.object ((key, node) :: before).reverse false) frames

def deliver (node : Node) : List Frame → State
  | [] => .done node false
  | .array before :: frames => .inside .separator (.array (node :: before) :: frames)
  | .object before :: frames => .inside .colon (.member before node :: frames)
  | .member before key :: frames => .inside .separator (.object ((key, node) :: before) :: frames)

/--
The state after a token that may not stand where it stands: nothing after it is read.
-/
def misplaced (flaw : Flaw) (frames : List Frame) : State :=
  .done (unwind (.missing (.malformed flaw)) frames) false

def begin (token : Token) (frames : List Frame) : State :=
  match token with
  | .leaf value => deliver (.leaf value) frames
  | .openArray => .inside .firstItem (.array [] :: frames)
  | .openObject => .inside .firstKey (.object [] :: frames)
  | .closeArray =>
    match frames with
    | .array _ :: _ => misplaced .trailingComma frames
    | _ => misplaced .noValue frames
  | _ => misplaced .noValue frames

/--
The state after a token in the place of a key. What is not text is kept, and nothing after it.
-/
def beginKey (token : Token) (frames : List Frame) : State :=
  match token with
  | .leaf (.text name) => deliver (.text name) frames
  | .leaf (.broken true fault none) => deliver (.leaf (.broken true fault none)) frames
  | .leaf other => .done (unwind (.leaf other) frames) false
  | .openArray => .done (unwind (.array [] false) frames) false
  | .openObject => .done (unwind (.object [] false) frames) false
  | .closeObject => misplaced .trailingComma frames
  | _ => misplaced .badKey frames

def separate (token : Token) : List Frame → State
  | .array before :: frames =>
    match token with
    | .comma => .inside .value (.array before :: frames)
    | .closeArray => deliver (.array before.reverse true) frames
    | _ => misplaced .noListSeparator (.array before :: frames)
  | .object before :: frames =>
    match token with
    | .comma => .inside .key (.object before :: frames)
    | .closeObject => deliver (.object before.reverse true) frames
    | _ => misplaced .noMemberSeparator (.object before :: frames)
  | frames => misplaced .noValue frames

def State.step (state : State) (token : Token) : State :=
  match state with
  | .inside .value frames => begin token frames
  | .inside .firstItem frames =>
    match token with
    | .closeArray => separate token frames
    | _ => begin token frames
  | .inside .firstKey frames =>
    match token with
    | .closeObject => separate token frames
    | _ => beginKey token frames
  | .inside .key frames => beginKey token frames
  | .inside .colon frames =>
    match token with
    | .colon => .inside .value frames
    | _ => misplaced .noColon frames
  | .inside .separator frames => separate token frames
  | .done root _ => .done root true

def cut : List Frame → Node
  | .array before :: frames => unwind (.array before.reverse false) frames
  | .object before :: frames => unwind (.object before.reverse false) frames
  | frames => unwind (.missing (.truncated .object)) frames

def State.close : State → Node × Bool
  | .inside .value frames => (unwind (.missing (.truncated .value)) frames, false)
  | .inside .key frames => (unwind (.missing (.truncated .value)) frames, false)
  | .inside _ frames => (cut frames, false)
  | .done root trailing => (root, trailing)

def ofTokens (tokens : List Token) : Node × Bool :=
  (tokens.foldl State.step (.inside .value [])).close

def ofText (text : String) : Node × Bool := ofTokens (Token.ofText text)

end Node

mutual

def Node.ofValue : Value → Node
  | .null => .null
  | .flag b => .flag b
  | .number n => .number n
  | .text s => .text s
  | .array items => .array (Node.ofValues items) true
  | .object members => .object (Node.ofMembers members) true

def Node.ofValues : List Value → List Node
  | [] => []
  | value :: rest => .ofValue value :: Node.ofValues rest

def Node.ofMembers : {bound : Option String} → Entries Value bound → List (Node × Node)
  | _, .nil => []
  | _, .cons key _ value rest => (.text key, .ofValue value) :: Node.ofMembers rest

end

end Stagecraft
