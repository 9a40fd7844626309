import Stagecraft.Proofs.Document.Nesting

/-!
This module contains which documents there are texts for: those without a fault in which every
number is one that some digits stand for. What is read from a text has such numbers only, and they
stay the same whatever is done with the parts around them. The digits of a double itself need not be
among those that stand for it.
-/

namespace Stagecraft

/--
Whether there are digits that stand for a number.
-/
def Number.IsSpelled (n : Number) : Prop := ∃ cs, Lexer.Spells cs (.number n)

namespace Number

open Lexer Lexer.Numeral

theorem ReadsBack.isSpelled {n : Number} (h : n.ReadsBack) : n.IsSpelled := by
  have spelled := spells_text n
  rw [readsBack_iff.mp h] at spelled
  exact ⟨_, spelled⟩

theorem isSpelled_integer {value : Int} (exact : IsExact value) :
    (integer value exact).IsSpelled :=
  ⟨_, spells_integer exact⟩

/--
With an exponent behind them the digits of an integer stand for a double.
-/
theorem isSpelled_floatOfInt {value : Int} (exact : IsExact value)
    (finite : (floatOfInt value).isFinite = true) : (real (floatOfInt value) finite).IsSpelled := by
  have room := natAbs_le_capacity exact
  obtain ⟨phase, whole, read⟩ := exists_follow_toDigits room (decide (value < 0))
  have scaled : follow { phase := .sign, negative := decide (value < 0) }
      (Nat.toDigits 10 value.natAbs ++ ['e', '0']) = some {
        phase := .exponent, negative := decide (value < 0), significand := value.natAbs } := by
    rw [follow_append, read]
    obtain rfl | ⟨_, rfl⟩ := whole
    · rfl
    · rfl
  have size : Numeral.size {
      phase := .exponent, negative := decide (value < 0), significand := value.natAbs } =
        Float.ofNat value.natAbs := by
    exact Decimal.evaluate_natCast (room.trans (by decide))
  have leaf : Numeral.leaf {
      phase := .exponent, negative := decide (value < 0), significand := value.natAbs } =
        .number (real (floatOfInt value) finite) := by
    unfold Numeral.leaf
    rw [if_neg (by simp)]
    unfold Numeral.real
    simp only [size, decide_eq_true_eq]
    exact dif_pos finite
  have spelled := spells_numeral _ scaled rfl
  rw [leaf] at spelled
  exact ⟨_, spelled⟩

theorem IsSpelled.toFloat {n : Number} (h : n.IsSpelled) :
    (real n.toFloat n.isFinite_toFloat).IsSpelled := by
  cases n with
  | integer value exact => exact isSpelled_floatOfInt exact _
  | real => exact h

end Number

def Token.IsSpelled : Token → Prop
  | .leaf (.number n) => n.IsSpelled
  | _ => True

namespace Lexer

variable {cs : List Char} {mode : Mode} {q : Quotation}

/--
What is known of a mode that was reached.
-/
def Mode.IsReached : Mode → Prop
  | .numeral n => ∃ negative cs, Numeral.follow { phase := .sign, negative } cs = some n
  | .word _ _ leaf => ∀ n, leaf ≠ .number n
  | _ => True

/--
What is known of what comes out of a character.
-/
def IsSound (result : Mode × List Token) : Prop :=
  result.1.IsReached ∧ ∀ token ∈ result.2, token.IsSpelled

theorem isSound_of_nil (h : mode.IsReached) : IsSound (mode, []) := ⟨h, List.forall_mem_nil _⟩

theorem isSound_singleton {token : Token} (h : mode.IsReached) (spelled : token.IsSpelled) :
    IsSound (mode, [token]) :=
  ⟨h, List.forall_mem_singleton.mpr spelled⟩

theorem isSound_ite {P : Prop} [Decidable P] {first second : Mode × List Token}
    (h : P → IsSound first) (h' : ¬P → IsSound second) : IsSound (if P then first else second) := by
  split
  next holds => exact h holds
  next fails => exact h' fails

theorem isSound_halt (read skip : Fault) : IsSound (halt read skip) :=
  isSound_singleton trivial trivial

namespace Quotation

theorem isSound_stop (q : Quotation) (fault : Fault) : IsSound (q.stop fault) :=
  isSound_singleton trivial trivial

theorem isSound_close (q : Quotation) : IsSound q.close := by
  unfold close
  split
  · exact isSound_singleton trivial trivial
  · exact isSound_singleton trivial trivial

theorem isSound_plain (q : Quotation) (c : Char) : IsSound (q.plain c) := by
  unfold plain
  refine isSound_ite (fun _ => q.isSound_close) fun _ => ?_
  refine isSound_ite (fun _ => isSound_of_nil trivial) fun _ => ?_
  exact isSound_ite (fun _ => q.isSound_stop _) fun _ => isSound_of_nil trivial

theorem isSound_escape (q : Quotation) (c : Char) : IsSound (q.escape c) := by
  unfold escape
  split
  · exact isSound_of_nil trivial
  · exact isSound_ite (fun _ => isSound_of_nil trivial) fun _ => q.isSound_stop _

theorem isSound_code (q : Quotation) (bytes : Nat) (value : Option Nat) (c : Char) :
    IsSound (q.code bytes value c) := by
  unfold code
  refine isSound_ite (fun _ => isSound_of_nil trivial) fun _ => ?_
  split
  · exact isSound_of_nil trivial
  · exact q.isSound_stop _

theorem isSound_step (q : Quotation) (c : Char) : IsSound (q.step c) := by
  unfold step
  split
  · exact q.isSound_plain c
  · exact q.isSound_escape c
  · exact q.isSound_code _ _ c
  · exact isSound_ite (fun _ => isSound_of_nil trivial) fun _ => (q.harm _).isSound_plain c
  · exact isSound_ite (fun _ => isSound_of_nil trivial) fun _ => (q.harm _).isSound_escape c

end Quotation

theorem follow_singleton_of_digit {c : Char} (digit : c.isDigit = true) (ne : c ≠ '0') :
    Numeral.follow { phase := .sign, negative := false } [c] =
      some { phase := .whole, negative := false, significand := digitValue c } := by
  have value : Nat.ofDigitChars 10 [c] 0 = digitValue c := by
    rw [Numeral.ofDigitChars_cons, Nat.mul_zero, Nat.zero_add, Nat.ofDigitChars_nil]
  rw [Numeral.follow_sign digit ne (List.forall_mem_nil _), value]
  have small : c.toNat ≤ 57 := (Char.isDigit_iff_toNat.mp digit).2
  rw [value]
  exact (Nat.sub_le_of_le_add (by omega)).trans (by decide : 57 ≤ Numeral.capacity)

theorem isSound_start (c : Char) : IsSound (start c) := by
  have mark (token : Token) (spelled : token.IsSpelled) : IsSound (.between, [token]) :=
    isSound_singleton trivial spelled
  have word (next : Char) (rest : List Char) (leaf : Leaf) (h : ∀ n, leaf ≠ .number n) :
      IsSound (.word next rest leaf, []) :=
    isSound_of_nil h
  have blank : IsSound (.between, []) := isSound_of_nil trivial
  have quoted : IsSound (.quotation {}, []) := isSound_of_nil trivial
  have stray : IsSound (.stopped, [.stray]) := isSound_singleton trivial trivial
  unfold start
  refine isSound_ite (fun _ => blank) fun _ => ?_
  refine isSound_ite (fun _ => mark .openArray trivial) fun _ => ?_
  refine isSound_ite (fun _ => mark .closeArray trivial) fun _ => ?_
  refine isSound_ite (fun _ => mark .openObject trivial) fun _ => ?_
  refine isSound_ite (fun _ => mark .closeObject trivial) fun _ => ?_
  refine isSound_ite (fun _ => mark .comma trivial) fun _ => ?_
  refine isSound_ite (fun _ => mark .colon trivial) fun _ => ?_
  refine isSound_ite (fun _ => quoted) fun _ => ?_
  refine isSound_ite (fun _ => word 'u' ['l', 'l'] .null (by simp)) fun _ => ?_
  refine isSound_ite (fun _ => word 'r' ['u', 'e'] (.flag true) (by simp)) fun _ => ?_
  refine isSound_ite (fun _ => word 'a' ['l', 's', 'e'] (.flag false) (by simp)) fun _ => ?_
  refine isSound_ite (fun _ => isSound_of_nil ⟨true, [], rfl⟩) fun _ => ?_
  refine isSound_ite (fun _ => isSound_of_nil ⟨false, ['0'], rfl⟩) fun zero => ?_
  refine isSound_ite (fun digit => ?_) fun _ => stray
  exact isSound_of_nil ⟨false, [c], follow_singleton_of_digit digit zero⟩

theorem Numeral.isComplete_of_endsBefore {n : Numeral} {c : Char} (h : n.endsBefore c = true) :
    n.isComplete = true := by
  unfold endsBefore at h
  unfold isComplete
  cases phase : n.phase with
  | zero | whole | fraction | exponent => rfl
  | _ =>
    rw [phase] at h
    cases h

theorem isSpelled_leaf {n : Numeral} (reached : (Mode.numeral n).IsReached)
    (complete : n.isComplete = true) : (Token.leaf n.leaf).IsSpelled := by
  obtain ⟨negative, cs, read⟩ := reached
  have spelled := spells_numeral negative read complete
  generalize n.leaf = leaf at spelled
  cases leaf with
  | number => exact ⟨_, spelled⟩
  | _ => trivial

theorem isSound_step (reached : mode.IsReached) (c : Char) : IsSound (mode.step c) := by
  cases mode with
  | between => exact isSound_start c
  | word next rest leaf =>
    rw [Mode.step.eq_def]
    refine isSound_ite (fun _ => ?_) fun _ => isSound_halt _ _
    cases rest with
    | cons next rest => exact isSound_of_nil reached
    | nil =>
      refine ⟨trivial, List.forall_mem_singleton.mpr ?_⟩
      cases leaf with
      | number n => exact absurd rfl (reached n)
      | _ => trivial
  | numeral n =>
    rw [Mode.step.eq_def]
    dsimp only
    split
    next more taken =>
      obtain ⟨negative, cs, read⟩ := reached
      refine isSound_of_nil ⟨negative, cs ++ [c], ?_⟩
      rw [Numeral.follow_append, read, Option.bind_some, Numeral.follow_cons, taken]
      rfl
    · refine isSound_ite (fun ends => ?_) fun _ => isSound_halt _ _
      obtain ⟨next, tokens⟩ := isSound_start c
      have spelled := isSpelled_leaf reached (Numeral.isComplete_of_endsBefore ends)
      exact ⟨next, List.forall_mem_cons.mpr ⟨spelled, tokens⟩⟩
  | quotation q => exact q.isSound_step c
  | stopped => exact isSound_of_nil trivial

theorem isSpelled_of_mem_close (reached : mode.IsReached) :
    ∀ token ∈ mode.close, token.IsSpelled := by
  cases mode with
  | between | stopped => exact List.forall_mem_nil _
  | word => exact List.forall_mem_singleton.mpr trivial
  | quotation => exact List.forall_mem_singleton.mpr trivial
  | numeral n =>
    rw [Mode.close]
    split
    next complete => exact List.forall_mem_singleton.mpr (isSpelled_leaf reached complete)
    · exact List.forall_mem_singleton.mpr trivial

/--
The numbers that are read from a text are those that digits in it stand for.
-/
theorem isSpelled_of_mem_scan (reached : mode.IsReached) :
    ∀ token ∈ scan mode cs, token.IsSpelled := by
  induction cs generalizing mode with
  | nil => exact isSpelled_of_mem_close reached
  | cons c rest ih =>
    obtain ⟨next, tokens⟩ := isSound_step reached c
    rw [scan, List.forall_mem_append]
    exact ⟨tokens, ih next⟩

end Lexer

namespace Node

/--
Whether something holds of each number in a document, apart from what stands in the place of keys.
-/
inductive EachNumber (p : Number → Prop) : Node → Prop where
  | leaf {leaf : Leaf} (h : ∀ n, leaf = .number n → p n) : EachNumber p (.leaf leaf)
  | array {items : List Node} {closed : Bool} (h : ∀ item ∈ items, EachNumber p item) :
    EachNumber p (.array items closed)
  | object {members : List (Node × Node)} {closed : Bool}
    (h : ∀ member ∈ members, EachNumber p member.2) : EachNumber p (.object members closed)
  | missing {fault : Fault} : EachNumber p (.missing fault)

variable {p q : Number → Prop} {node : Node} {frames : List Frame} {state : State}

theorem EachNumber.mono (h : node.EachNumber p) (imp : ∀ n, p n → q n) : node.EachNumber q := by
  induction h with
  | leaf h => exact .leaf fun n same => imp n (h n same)
  | array _ ih => exact .array ih
  | object _ ih => exact .object ih
  | missing => exact .missing

@[simp]
theorem eachNumber_number_iff {n : Number} : (number n).EachNumber p ↔ p n := by
  constructor
  · intro h
    cases h with
    | leaf h => exact h n rfl
  · intro h
    apply EachNumber.leaf
    rintro _ ⟨⟩
    exact h

@[simp]
theorem eachNumber_text (s : String) : (text s).EachNumber p := by
  apply EachNumber.leaf
  rintro _ ⟨⟩

@[simp]
theorem eachNumber_flag (b : Bool) : (flag b).EachNumber p := by
  apply EachNumber.leaf
  rintro _ ⟨⟩

@[simp]
theorem eachNumber_null : null.EachNumber p := by
  apply EachNumber.leaf
  rintro _ ⟨⟩

@[simp]
theorem eachNumber_array_iff {items : List Node} {closed : Bool} :
    (array items closed).EachNumber p ↔ ∀ item ∈ items, item.EachNumber p := by
  constructor
  · intro h
    cases h with
    | array h => exact h
  · exact .array

@[simp]
theorem eachNumber_object_iff {members : List (Node × Node)} {closed : Bool} :
    (object members closed).EachNumber p ↔ ∀ member ∈ members, member.2.EachNumber p := by
  constructor
  · intro h
    cases h with
    | object h => exact h
  · exact .object

theorem eachNumber_ofFloat {x : Float} (h : ∀ finite, p (.real x finite)) :
    (ofFloat x).EachNumber p := by
  unfold ofFloat
  split
  next finite => exact eachNumber_number_iff.mpr (h finite)
  · exact eachNumber_null

/--
A document without a fault that has no numbers but those that come out as they are is read as it is.
-/
theorem IsWhole.reread_eq (whole : node.IsWhole) (h : node.EachNumber Number.ReadsBack) :
    node.reread = node := by
  induction whole with
  | @leaf leaf _ =>
    cases h with
    | leaf h =>
      cases leaf with
      | number n => rw [reread, Leaf.reread, Number.readsBack_iff.mp (h n rfl)]
      | _ => rfl
  | @array items _ ih =>
    have same : ∀ item ∈ items, item.reread = item := fun item mem =>
      ih item mem (eachNumber_array_iff.mp h item mem)
    rw [reread, rereadItems_eq_map, List.map_congr_left same, List.map_id']
  | @object members _ _ ih =>
    have same : ∀ member ∈ members, (member.1, member.2.reread) = member := fun member mem =>
      Prod.ext rfl (ih member mem (eachNumber_object_iff.mp h member mem))
    rw [reread, rereadMembers_eq_map, List.map_congr_left same, List.map_id']

def Frame.EachNumber (p : Number → Prop) : Frame → Prop
  | .array before => ∀ item ∈ before, item.EachNumber p
  | .object before => ∀ member ∈ before, member.2.EachNumber p
  | .member before _ => ∀ member ∈ before, member.2.EachNumber p

def State.EachNumber (p : Number → Prop) : State → Prop
  | .inside _ frames => ∀ frame ∈ frames, frame.EachNumber p
  | .done root _ => root.EachNumber p

theorem eachNumber_unwind (h : node.EachNumber p) (around : ∀ frame ∈ frames, frame.EachNumber p) :
    (unwind node frames).EachNumber p := by
  induction frames generalizing node with
  | nil => exact h
  | cons frame frames ih =>
    obtain ⟨first, outside⟩ := List.forall_mem_cons.mp around
    cases frame with
    | array before =>
      refine ih (.array ?_) outside
      simp only [List.mem_reverse, List.forall_mem_cons]
      exact ⟨h, first⟩
    | object before =>
      refine ih (.object ?_) outside
      simp only [List.mem_reverse, List.forall_mem_cons]
      exact ⟨.missing, first⟩
    | member before key =>
      refine ih (.object ?_) outside
      simp only [List.mem_reverse, List.forall_mem_cons]
      exact ⟨h, first⟩

theorem eachNumber_deliver (h : node.EachNumber p)
    (around : ∀ frame ∈ frames, frame.EachNumber p) : (deliver node frames).EachNumber p := by
  cases frames with
  | nil => exact h
  | cons frame frames =>
    obtain ⟨first, outside⟩ := List.forall_mem_cons.mp around
    cases frame with
    | array => exact List.forall_mem_cons.mpr ⟨List.forall_mem_cons.mpr ⟨h, first⟩, outside⟩
    | object => exact List.forall_mem_cons.mpr ⟨first, outside⟩
    | member => exact List.forall_mem_cons.mpr ⟨List.forall_mem_cons.mpr ⟨h, first⟩, outside⟩

theorem eachNumber_misplaced (flaw : Flaw) (around : ∀ frame ∈ frames, frame.EachNumber p) :
    (misplaced flaw frames).EachNumber p :=
  eachNumber_unwind .missing around

variable {token : Token}

theorem eachNumber_begin (read : ∀ n, token = .leaf (.number n) → p n)
    (around : ∀ frame ∈ frames, frame.EachNumber p) : (begin token frames).EachNumber p := by
  unfold begin
  split
  · apply eachNumber_deliver (.leaf _) around
    rintro n rfl
    exact read n rfl
  · exact List.forall_mem_cons.mpr ⟨List.forall_mem_nil _, around⟩
  · exact List.forall_mem_cons.mpr ⟨List.forall_mem_nil _, around⟩
  · split
    · exact eachNumber_misplaced _ around
    · exact eachNumber_misplaced _ around
  · exact eachNumber_misplaced _ around

theorem eachNumber_beginKey (read : ∀ n, token = .leaf (.number n) → p n)
    (around : ∀ frame ∈ frames, frame.EachNumber p) : (beginKey token frames).EachNumber p := by
  unfold beginKey
  split
  · exact eachNumber_deliver (eachNumber_text _) around
  · exact eachNumber_deliver (.leaf (by simp)) around
  · apply eachNumber_unwind (.leaf _) around
    rintro n rfl
    exact read n rfl
  · exact eachNumber_unwind (.array (List.forall_mem_nil _)) around
  · exact eachNumber_unwind (.object (List.forall_mem_nil _)) around
  · exact eachNumber_misplaced _ around
  · exact eachNumber_misplaced _ around

theorem eachNumber_separate (token : Token) (around : ∀ frame ∈ frames, frame.EachNumber p) :
    (separate token frames).EachNumber p := by
  unfold separate
  split
  next before frames =>
    obtain ⟨first, outside⟩ := List.forall_mem_cons.mp around
    split
    · exact around
    · exact eachNumber_deliver (.array fun item mem => first item (List.mem_reverse.mp mem)) outside
    · exact eachNumber_misplaced _ around
  next before frames =>
    obtain ⟨first, outside⟩ := List.forall_mem_cons.mp around
    split
    · exact around
    · apply eachNumber_deliver _ outside
      exact .object fun item mem => first item (List.mem_reverse.mp mem)
    · exact eachNumber_misplaced _ around
  · exact eachNumber_misplaced _ around

theorem State.eachNumber_step (h : state.EachNumber p)
    (read : ∀ n, token = .leaf (.number n) → p n) : (state.step token).EachNumber p := by
  unfold State.step
  split
  · exact eachNumber_begin read h
  · split
    · exact eachNumber_separate _ h
    · exact eachNumber_begin read h
  · split
    · exact eachNumber_separate _ h
    · exact eachNumber_beginKey read h
  · exact eachNumber_beginKey read h
  · split
    · exact h
    · exact eachNumber_misplaced _ h
  · exact eachNumber_separate _ h
  · exact h

theorem eachNumber_cut (around : ∀ frame ∈ frames, frame.EachNumber p) :
    (cut frames).EachNumber p := by
  unfold cut
  split
  next before frames =>
    obtain ⟨first, outside⟩ := List.forall_mem_cons.mp around
    exact eachNumber_unwind (.array fun item mem => first item (List.mem_reverse.mp mem)) outside
  next before frames =>
    obtain ⟨first, outside⟩ := List.forall_mem_cons.mp around
    exact eachNumber_unwind (.object fun item mem => first item (List.mem_reverse.mp mem)) outside
  · exact eachNumber_unwind .missing around

theorem State.eachNumber_close (h : state.EachNumber p) : state.close.1.EachNumber p := by
  unfold State.close
  split
  · exact eachNumber_unwind .missing h
  · exact eachNumber_unwind .missing h
  · exact eachNumber_cut h
  · exact h

/--
The numbers in a document that was read from a text are those that digits in it stand for.
-/
theorem eachNumber_ofText (text : String) : (ofText text).1.EachNumber Number.IsSpelled := by
  have tokens : ∀ token ∈ Token.ofText text, token.IsSpelled :=
    Lexer.isSpelled_of_mem_scan trivial
  apply State.eachNumber_close
  apply List.foldlRecOn (motive := State.EachNumber Number.IsSpelled)
  · exact List.forall_mem_nil _
  · intro state h token mem
    apply State.eachNumber_step h
    rintro n rfl
    exact tokens _ mem

mutual

/--
The numbers in a value are those of the document that it was read from.
-/
theorem eachNumber_of_toValue (node : Node) {source : Source} {value : Value}
    (read : node.toValue source = .ok value) (h : node.EachNumber p) :
    (ofValue value).EachNumber p := by
  match node with
  | .leaf .null | .leaf (.flag _) | .leaf (.number _) | .leaf (.text _) =>
    cases read
    exact h
  | .leaf (.broken ..) | .missing _ => cases read
  | .array items closed =>
    obtain ⟨_, _, read⟩ := exists_of_bind_eq_ok read
    obtain ⟨values, found, read⟩ := exists_of_bind_eq_ok read
    obtain ⟨_, _, read⟩ := exists_of_bind_eq_ok read
    cases read
    exact .array (eachNumber_of_toValues items found (eachNumber_array_iff.mp h))
  | .object members closed =>
    obtain ⟨_, _, read⟩ := exists_of_bind_eq_ok read
    obtain ⟨t, found, read⟩ := exists_of_bind_eq_ok read
    obtain ⟨_, _, read⟩ := exists_of_bind_eq_ok read
    cases read
    have values := eachNumber_of_toMembers members found (eachNumber_object_iff.mp h)
      fun _ _ none => nomatch none
    apply EachNumber.object
    rw [ofMembers_eq_map, List.forall_mem_map]
    exact fun pair mem => values pair.1 pair.2 (Entries.mem_toList_iff.mp mem)

theorem eachNumber_of_toValues (items : List Node) {source : Source} {values : List Value}
    (read : toValues source items = .ok values) (h : ∀ item ∈ items, item.EachNumber p) :
    ∀ item ∈ ofValues values, item.EachNumber p := by
  match items with
  | [] =>
    cases read
    exact List.forall_mem_nil _
  | item :: rest =>
    obtain ⟨one, all⟩ := List.forall_mem_cons.mp h
    obtain ⟨value, first, read⟩ := exists_of_bind_eq_ok read
    obtain ⟨others, found, read⟩ := exists_of_bind_eq_ok read
    cases read
    exact List.forall_mem_cons.mpr
      ⟨eachNumber_of_toValue item first one, eachNumber_of_toValues rest found all⟩

theorem eachNumber_of_toMembers (members : List (Node × Node)) {source : Source}
    {before t : Table Value} (read : toMembers source before members = .ok t)
    (h : ∀ member ∈ members, member.2.EachNumber p)
    (known : ∀ name value, before.get? name = some value → (ofValue value).EachNumber p) :
    ∀ name value, t.get? name = some value → (ofValue value).EachNumber p := by
  match members with
  | [] =>
    cases read
    exact known
  | (key, node) :: rest =>
    obtain ⟨one, all⟩ := List.forall_mem_cons.mp h
    obtain ⟨name, _, read⟩ := exists_of_bind_eq_ok read
    obtain ⟨value, first, read⟩ := exists_of_bind_eq_ok read
    apply eachNumber_of_toMembers rest read all
    intro other found same
    rw [Table.get?_insert] at same
    split at same
    · cases same
      exact eachNumber_of_toValue node first one
    · exact known other found same

end

theorem exists_texts {α : Type} (node : α → Node) {parts : List α}
    (h : ∀ part ∈ parts, ∃ text, Spells text (node part)) :
    ∃ texts : List (String × α), parts = texts.map (·.2) ∧
      ∀ part ∈ texts, Spells part.1 (node part.2) := by
  induction parts with
  | nil => exact ⟨[], rfl, List.forall_mem_nil _⟩
  | cons part rest ih =>
    obtain ⟨⟨text, one⟩, others⟩ := List.forall_mem_cons.mp h
    obtain ⟨texts, rfl, all⟩ := ih others
    exact ⟨(text, part) :: texts, rfl, List.forall_mem_cons.mpr ⟨one, all⟩⟩

theorem IsWhole.exists_spells (whole : node.IsWhole) (h : node.EachNumber Number.IsSpelled) :
    ∃ text, Spells text node := by
  induction whole with
  | @leaf leaf whole =>
    cases h with
    | leaf h =>
      cases leaf with
      | number n =>
        obtain ⟨cs, spelled⟩ := h n rfl
        refine ⟨String.ofList cs, spells_leaf ?_⟩
        rwa [String.toList_ofList]
      | _ => exact ⟨_, spells_leaf (Lexer.spells_print whole)⟩
  | array _ ih =>
    rw [eachNumber_array_iff] at h
    obtain ⟨texts, rfl, all⟩ := exists_texts id fun item mem => ih item mem (h item mem)
    exact ⟨_, spells_array .compact 0 all⟩
  | object keys _ ih =>
    rw [eachNumber_object_iff] at h
    obtain ⟨named, rfl⟩ := exists_names keys
    have each : ∀ member ∈ named, ∃ text, Spells text member.2 := fun member mem =>
      ih _ (List.mem_map_of_mem mem) (h _ (List.mem_map_of_mem mem))
    obtain ⟨texts, rfl, all⟩ := exists_texts Prod.snd each
    rw [List.map_map]
    exact ⟨_, spells_object .compact 0 all⟩

/--
There is a text for a document without a fault if there is one for each number in it.
-/
theorem IsWhole.exists_ofText_eq (whole : node.IsWhole) (h : node.EachNumber Number.IsSpelled) :
    ∃ text, ofText text = (node, false) := by
  obtain ⟨text, spelled⟩ := whole.exists_spells h
  exact ⟨text, spelled.ofText_eq⟩

end Node

end Stagecraft
