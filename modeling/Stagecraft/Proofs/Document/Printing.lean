import Stagecraft.Proofs.Document.Scanning

/-!
This module contains the reading of printed documents. A document without a fault in it is read as
it was, on one line or with one part on a line, but for the doubles that come out differently. Other
texts than the printed ones are read in the same way, as long as their parts are.
-/

namespace Stagecraft

namespace Node

/--
A document without a fault in it.
-/
inductive IsWhole : Node → Prop where
  | leaf {leaf : Leaf} (h : leaf.IsWhole) : IsWhole (.leaf leaf)
  | array {items : List Node} (h : ∀ item ∈ items, IsWhole item) : IsWhole (.array items true)
  | object {members : List (Node × Node)} (keys : ∀ member ∈ members, ∃ name, member.1 = .text name)
    (h : ∀ member ∈ members, IsWhole member.2) : IsWhole (.object members true)

mutual

/--
The document as which the text of a document is read.
-/
def reread : Node → Node
  | .leaf value => .leaf value.reread
  | .array items closed => .array (rereadItems items) closed
  | .object members closed => .object (rereadMembers members) closed
  | .missing fault => .missing fault

def rereadItems : List Node → List Node
  | [] => []
  | item :: rest => item.reread :: rereadItems rest

def rereadMembers : List (Node × Node) → List (Node × Node)
  | [] => []
  | (key, value) :: rest => (key, value.reread) :: rereadMembers rest

end

theorem rereadItems_eq_map (items : List Node) : rereadItems items = items.map reread := by
  induction items with
  | nil => rfl
  | cons item rest ih => rw [rereadItems, ih, List.map_cons]

theorem rereadMembers_eq_map (members : List (Node × Node)) :
    rereadMembers members = members.map fun member => (member.1, member.2.reread) := by
  induction members with
  | nil => rfl
  | cons member rest ih => rw [rereadMembers, ih, List.map_cons]

end Node

namespace Spacing

/--
The parts of a container that stands inside of `depth - 1` others.
-/
def join (spacing : Spacing) (depth : Nat) : List String → String
  | [] => ""
  | part :: rest =>
    let comma := if rest.isEmpty then "" else ","
    spacing.lineBreak depth ++ part ++ comma ++ spacing.join depth rest

/--
A container that stands inside of `depth` others.
-/
def enclose (spacing : Spacing) (depth : Nat) (first last : String) (parts : List String) :
    String :=
  first ++ spacing.join (depth + 1) parts ++
    ((if parts.isEmpty then "" else spacing.lineBreak depth) ++ last)

def member (spacing : Spacing) (name text : String) : String :=
  escapedText name ++ spacing.colon ++ text

end Spacing

namespace Node

variable {spacing : Spacing} {depth : Nat}

theorem printItems_eq_join (spacing : Spacing) (depth : Nat) (items : List Node) :
    printItems spacing depth items = spacing.join depth (items.map (printAt spacing depth)) := by
  induction items with
  | nil => rfl
  | cons item rest ih =>
    rw [printItems, ih, List.map_cons, Spacing.join, List.isEmpty_map]

theorem printAt_array (spacing : Spacing) (depth : Nat) (items : List Node) :
    (Node.array items true).printAt spacing depth =
      spacing.enclose depth "[" "]" (items.map (printAt spacing (depth + 1))) := by
  rw [printAt, printItems_eq_join, Spacing.enclose, List.isEmpty_map]
  rfl

theorem printMembers_eq_join (spacing : Spacing) (depth : Nat) (members : List (String × Node)) :
    printMembers spacing depth (members.map fun member => (.text member.1, member.2)) =
      spacing.join depth
        (members.map fun member => spacing.member member.1 (member.2.printAt spacing depth)) := by
  induction members with
  | nil => rfl
  | cons member rest ih =>
    rw [List.map_cons, printMembers, ih, List.map_cons, Spacing.join, Spacing.member,
      List.isEmpty_map, List.isEmpty_map]
    simp only [String.append_assoc]
    rfl

theorem printAt_object (spacing : Spacing) (depth : Nat) (members : List (String × Node)) :
    (Node.object (members.map fun member => (.text member.1, member.2)) true).printAt spacing
        depth =
      spacing.enclose depth "\x7b" "\x7d"
        (members.map fun member =>
          spacing.member member.1 (member.2.printAt spacing (depth + 1))) := by
  rw [printAt, printMembers_eq_join, Spacing.enclose, List.isEmpty_map, List.isEmpty_map]
  rfl

theorem exists_names {members : List (Node × Node)}
    (keys : ∀ member ∈ members, ∃ name, member.1 = .text name) :
    ∃ named : List (String × Node),
      members = named.map fun member => (.text member.1, member.2) := by
  induction members with
  | nil => exact ⟨[], rfl⟩
  | cons member rest ih =>
    obtain ⟨⟨name, one⟩, others⟩ := List.forall_mem_cons.mp keys
    obtain ⟨named, rfl⟩ := ih others
    obtain ⟨key, value⟩ := member
    cases one
    exact ⟨(name, value) :: named, rfl⟩

/--
The state after some more text, none of which belongs to a token that began before.
-/
def State.read (state : State) (cs : List Char) : State :=
  (Lexer.scan .between cs).foldl State.step state

open Lexer

variable {cs rest : List Char} {state : State} {frames : List Frame}

theorem read_blank {c : Char} (blank : isBlank c = true) (rest : List Char) :
    state.read (c :: rest) = state.read rest := by
  unfold State.read
  rw [scan, Mode.step, start, if_pos blank]
  rfl

theorem read_lineBreak (rest : List Char) :
    state.read ((spacing.lineBreak depth).toList ++ rest) = state.read rest := by
  cases spacing with
  | compact => rfl
  | indented =>
    have text : (Spacing.indented.lineBreak depth).toList ++ rest =
        '\n' :: (List.replicate (2 * depth) ' ' ++ rest) := by
      simp [Spacing.lineBreak]
    rw [text, read_blank rfl]
    generalize 2 * depth = count
    induction count with
    | zero => rfl
    | succ count ih => rw [List.replicate_succ, List.cons_append, read_blank rfl, ih]

theorem read_leaf {leaf : Leaf} (spelled : Lexer.Spells cs leaf) (ends : Ends rest) :
    state.read (cs ++ rest) = (state.step (.leaf leaf)).read rest := by
  unfold State.read
  rw [spelled rest ends]
  rfl

/--
A character that is a token.
-/
theorem read_mark (c : Char) {token : Token} (h : start c = (.between, [token]))
    (rest : List Char) :
    state.read (c :: rest) = (state.step token).read rest := by
  unfold State.read
  rw [scan, Mode.step, h]
  rfl

theorem read_colon (rest : List Char) :
    state.read (spacing.colon.toList ++ rest) = (state.step .colon).read rest := by
  cases spacing with
  | _ => rfl

theorem ends_cons {c : Char} (h : c.isDigit = false ∧ c ≠ '.' ∧ c ≠ 'e' ∧ c ≠ 'E')
    (rest : List Char) : Ends (c :: rest) := by
  intro other mem
  cases mem
  exact h

theorem ends_lineBreak {c : Char} (h : c.isDigit = false ∧ c ≠ '.' ∧ c ≠ 'e' ∧ c ≠ 'E')
    (spacing : Spacing) (depth : Nat) (rest : List Char) :
    Ends ((spacing.lineBreak depth).toList ++ c :: rest) := by
  cases spacing with
  | compact => exact ends_cons h rest
  | indented =>
    unfold Spacing.lineBreak
    rw [String.toList_append, List.append_assoc]
    exact ends_cons (by decide) _

/--
Whether `text` in the place of a value is read as `node`.
-/
def Spells (text : String) (node : Node) : Prop :=
  ∀ (frames : List Frame) (position : Position) (rest : List Char),
    position = .value ∨ position = .firstItem → Ends rest →
      (State.inside position frames).read (text.toList ++ rest) = (deliver node frames).read rest

theorem spells_leaf {text : String} {leaf : Leaf} (h : Lexer.Spells text.toList leaf) :
    Spells text (.leaf leaf) := by
  intro frames position rest first ends
  rw [read_leaf h ends]
  obtain rfl | rfl := first
  · rfl
  · rfl

theorem read_items {parts : List (String × Node)} (h : ∀ part ∈ parts, Spells part.1 part.2)
    (some : parts ≠ []) (before : List Node) {position : Position}
    (first : position = .value ∨ position = .firstItem) (ends : Ends rest) :
    (State.inside position (.array before :: frames)).read
        ((spacing.join depth (parts.map (·.1))).toList ++ rest) =
      (State.inside .separator (.array ((parts.map (·.2)).reverse ++ before) :: frames)).read
        rest := by
  induction parts generalizing before position with
  | nil => exact absurd rfl some
  | cons part others ih =>
    obtain ⟨one, all⟩ := List.forall_mem_cons.mp h
    obtain ⟨text, node⟩ := part
    cases others with
    | nil =>
      have parts : (spacing.join depth [text]).toList ++ rest =
          (spacing.lineBreak depth).toList ++ (text.toList ++ rest) := by
        simp [Spacing.join]
      rw [List.map_singleton, parts, read_lineBreak, one _ position rest first ends]
      rfl
    | cons next others =>
      have later := ih all (List.cons_ne_nil _ _) (node :: before) (.inl rfl)
      rw [List.map_cons (l := next :: others), List.map_cons (l := next :: others),
        List.reverse_cons, List.append_assoc, List.singleton_append, ← later]
      generalize same : (next :: others).map (·.1) = texts
      have parts : (spacing.join depth (text :: texts)).toList ++ rest =
          (spacing.lineBreak depth).toList ++ (text.toList ++
            ',' :: ((spacing.join depth texts).toList ++ rest)) := by
        rw [Spacing.join, ← same]
        simp
      rw [parts, read_lineBreak, one _ position _ first (ends_cons (by decide) _),
        read_mark ',' rfl]
      rfl

/--
The text of a member that has the name given, and in the place of its value a text that is read as
`node`.
-/
theorem read_member {name text : String} {node : Node} (h : Spells text node)
    (before : List (Node × Node)) {position : Position}
    (first : position = .key ∨ position = .firstKey) (ends : Ends rest) :
    (State.inside position (.object before :: frames)).read
        ((spacing.member name text).toList ++ rest) =
      (State.inside .separator (.object ((.text name, node) :: before) :: frames)).read rest := by
  have colon : Ends (spacing.colon.toList ++ (text.toList ++ rest)) := by
    cases spacing with
    | _ => exact ends_cons (by decide) _
  have key : Lexer.Spells (escapedText name).toList (.text name) :=
    fun rest _ => scan_escapedText name rest
  have parts : (spacing.member name text).toList ++ rest =
      (escapedText name).toList ++ (spacing.colon.toList ++ (text.toList ++ rest)) := by
    simp [Spacing.member]
  have value := h (.member before (.text name) :: frames) .value rest (.inl rfl) ends
  rw [parts, read_leaf key colon, read_colon]
  obtain rfl | rfl := first
  · exact value
  · exact value

theorem read_members {parts : List (String × String × Node)}
    (h : ∀ part ∈ parts, Spells part.1 part.2.2) (some : parts ≠ [])
    (before : List (Node × Node)) {position : Position}
    (first : position = .key ∨ position = .firstKey) (ends : Ends rest) :
    (State.inside position (.object before :: frames)).read ((spacing.join depth
        (parts.map fun part => spacing.member part.2.1 part.1)).toList ++ rest) =
      (State.inside .separator (.object
        ((parts.map fun part => (.text part.2.1, part.2.2)).reverse ++ before) :: frames)).read
          rest := by
  induction parts generalizing before position with
  | nil => exact absurd rfl some
  | cons part others ih =>
    obtain ⟨one, all⟩ := List.forall_mem_cons.mp h
    obtain ⟨text, name, node⟩ := part
    cases others with
    | nil =>
      have parts : (spacing.join depth [spacing.member name text]).toList ++ rest =
          (spacing.lineBreak depth).toList ++ ((spacing.member name text).toList ++ rest) := by
        simp [Spacing.join]
      rw [List.map_singleton, parts, read_lineBreak, read_member one before first ends]
      rfl
    | cons next others =>
      have later := ih all (List.cons_ne_nil _ _) ((.text name, node) :: before) (.inl rfl)
      rw [List.map_cons (l := next :: others), List.map_cons (l := next :: others),
        List.reverse_cons, List.append_assoc, List.singleton_append, ← later]
      generalize same : (next :: others).map (fun part => spacing.member part.2.1 part.1) = texts
      have parts : (spacing.join depth (spacing.member name text :: texts)).toList ++ rest =
          (spacing.lineBreak depth).toList ++ ((spacing.member name text).toList ++
            ',' :: ((spacing.join depth texts).toList ++ rest)) := by
        rw [Spacing.join, ← same]
        simp
      rw [parts, read_lineBreak, read_member one before first (ends_cons (by decide) _),
        read_mark ',' rfl]
      rfl

theorem spells_array (spacing : Spacing) (depth : Nat) {parts : List (String × Node)}
    (h : ∀ part ∈ parts, Spells part.1 part.2) :
    Spells (spacing.enclose depth "[" "]" (parts.map (·.1))) (.array (parts.map (·.2)) true) := by
  intro frames position rest first ends
  have opened : (State.inside position frames).step .openArray =
      .inside .firstItem (.array [] :: frames) := by
    obtain rfl | rfl := first
    · rfl
    · rfl
  cases parts with
  | nil =>
    have text : (spacing.enclose depth "[" "]" []).toList ++ rest = '[' :: ']' :: rest := by
      simp [Spacing.enclose, Spacing.join]
    rw [List.map_nil, text, read_mark '[' rfl, opened]
    exact read_mark ']' rfl rest
  | cons part others =>
    generalize same : (part :: others).map (·.1) = texts
    have text : (spacing.enclose depth "[" "]" texts).toList ++ rest =
        '[' :: ((spacing.join (depth + 1) texts).toList ++
          ((spacing.lineBreak depth).toList ++ ']' :: rest)) := by
      simp [Spacing.enclose, ← same]
    rw [text, read_mark '[' rfl, opened, ← same, read_items h (List.cons_ne_nil _ _) [] (.inr rfl)
      (ends_lineBreak (by decide) spacing depth rest), List.append_nil, read_lineBreak,
      read_mark ']' rfl]
    change (deliver (.array ((part :: others).map (·.2)).reverse.reverse true) frames).read rest = _
    rw [List.reverse_reverse]

theorem spells_object (spacing : Spacing) (depth : Nat) {parts : List (String × String × Node)}
    (h : ∀ part ∈ parts, Spells part.1 part.2.2) :
    Spells (spacing.enclose depth "\x7b" "\x7d"
        (parts.map fun part => spacing.member part.2.1 part.1))
      (.object (parts.map fun part => (.text part.2.1, part.2.2)) true) := by
  intro frames position rest first ends
  have opened : (State.inside position frames).step .openObject =
      .inside .firstKey (.object [] :: frames) := by
    obtain rfl | rfl := first
    · rfl
    · rfl
  cases parts with
  | nil =>
    have text : (spacing.enclose depth "\x7b" "\x7d" []).toList ++ rest = '{' :: '}' :: rest := by
      simp [Spacing.enclose, Spacing.join]
    rw [List.map_nil, text, read_mark '{' rfl, opened]
    exact read_mark '}' rfl rest
  | cons part others =>
    generalize same : (part :: others).map (fun part => spacing.member part.2.1 part.1) = texts
    have text : (spacing.enclose depth "\x7b" "\x7d" texts).toList ++ rest =
        '{' :: ((spacing.join (depth + 1) texts).toList ++
          ((spacing.lineBreak depth).toList ++ '}' :: rest)) := by
      simp [Spacing.enclose, ← same]
    rw [text, read_mark '{' rfl, opened, ← same, read_members h (List.cons_ne_nil _ _) []
      (.inr rfl) (ends_lineBreak (by decide) spacing depth rest), List.append_nil, read_lineBreak,
      read_mark '}' rfl]
    change (deliver (.object (List.map _ (part :: others)).reverse.reverse true) frames).read rest =
      _
    rw [List.reverse_reverse]

/--
A text that is read as a document wherever a value may stand is read as it where there is nothing
else.
-/
theorem Spells.ofText_eq {text : String} {node : Node} (h : Spells text node) :
    ofText text = (node, false) := by
  have read := h [] .value [] (.inl rfl) (by simp [Ends])
  rw [List.append_nil] at read
  exact congrArg State.close read

theorem IsWhole.spells_printAt {node : Node} (h : node.IsWhole) (spacing : Spacing) (depth : Nat) :
    Spells (node.printAt spacing depth) node.reread := by
  induction h generalizing depth with
  | leaf whole => exact spells_leaf (spells_print whole)
  | @array items _ ih =>
    let parts := items.map fun item => (item.printAt spacing (depth + 1), item.reread)
    have each : ∀ part ∈ parts, Spells part.1 part.2 :=
      List.forall_mem_map.mpr fun item mem => ih item mem (depth + 1)
    have spelled := spells_array spacing depth each
    rw [List.map_map, List.map_map] at spelled
    rw [printAt_array, reread, rereadItems_eq_map]
    exact spelled
  | object keys _ ih =>
    obtain ⟨named, rfl⟩ := exists_names keys
    let parts := named.map fun member =>
      (member.2.printAt spacing (depth + 1), member.1, member.2.reread)
    have each : ∀ part ∈ parts, Spells part.1 part.2.2 :=
      List.forall_mem_map.mpr fun member mem => ih _ (List.mem_map_of_mem mem) (depth + 1)
    have spelled := spells_object spacing depth each
    rw [List.map_map, List.map_map] at spelled
    rw [printAt_object, reread, rereadMembers_eq_map, List.map_map]
    exact spelled

/--
A document without a fault in it is read as it was, but for the doubles that come out differently.
-/
theorem ofText_print {node : Node} (h : node.IsWhole) (spacing : Spacing) :
    ofText (node.print spacing) = (node.reread, false) :=
  (h.spells_printAt spacing 0).ofText_eq

end Node

end Stagecraft
