import Stagecraft.Document.Printer
import Stagecraft.Proofs.Document.Numeral

/-!
This module contains the reading of written tokens. A value without parts is read as it was written,
whatever comes after it; only a number must not be followed by what could be a part of it. A double
is read as what comes out of its digits, which is not always the double that was written.
-/

namespace Stagecraft

namespace Number

/--
The number as which the text of a number is read.
-/
def reread : Number → Number
  | integer n exact => integer n exact
  | real x finite => real (Double.reread x) (Double.isFinite_reread finite)

/--
Whether a number is what its text is read as.
-/
def ReadsBack (n : Number) : Prop := Token.ofText n.text = [.leaf (.number n)]

end Number

namespace Lexer

open Numeral

/--
Whether a number ends in front of `rest`.
-/
def Ends (rest : List Char) : Prop :=
  ∀ c ∈ rest.head?, c.isDigit = false ∧ c ≠ '.' ∧ c ≠ 'e' ∧ c ≠ 'E'

variable {cs rest : List Char} {n n' : Numeral}

theorem scan_numeral_append (h : n.follow cs = some n') (rest : List Char) :
    scan (.numeral n) (cs ++ rest) = scan (.numeral n') rest := by
  induction cs generalizing n with
  | nil =>
    cases h
    rfl
  | cons c cs ih =>
    obtain ⟨next, step, h⟩ := Option.bind_eq_some_iff.mp h
    rw [List.cons_append, scan, Mode.step, step]
    exact ih h

theorem scan_numeral_of_ends (complete : n.isComplete = true) (ends : Ends rest) :
    scan (.numeral n) rest = .leaf n.leaf :: scan .between rest := by
  cases rest with
  | nil =>
    rw [scan, Mode.close, if_pos complete]
    rfl
  | cons c rest =>
    obtain ⟨digit, point, small, large⟩ := ends c rfl
    have stops : n.next? c = none := by
      obtain ⟨phase, _, _, _, _, _, _⟩ := n
      cases phase with
      | sign | point | mark | markSign => cases complete
      | _ => simp [next?, digit, point, small, large]
    have may : n.endsBefore c = true := by
      obtain ⟨phase, _, _, _, _, _, _⟩ := n
      cases phase with
      | sign | point | mark | markSign => cases complete
      | _ => simp [endsBefore, digit]
    rw [scan, Mode.step, stops]
    dsimp only
    rw [if_pos may, scan, Mode.step]
    rfl

/--
Whether the characters `cs` are read as `leaf`, wherever a number may end behind them.
-/
def Spells (cs : List Char) (leaf : Leaf) : Prop :=
  ∀ rest, Ends rest → scan .between (cs ++ rest) = .leaf leaf :: scan .between rest

theorem scan_between_of_digit {c : Char} (digit : c.isDigit = true) (cs : List Char) :
    scan .between (c :: cs) = scan (.numeral { phase := .sign, negative := false }) (c :: cs) := by
  obtain ⟨least, le⟩ := Char.isDigit_iff_toNat.mp digit
  change 48 ≤ c.toNat at least
  change c.toNat ≤ 57 at le
  rw [← Char.ofNat_toNat c]
  generalize c.toNat = code at least le
  interval_cases code
  all_goals rfl

theorem isDigit_of_next? {negative : Bool} {c : Char}
    (h : next? { phase := .sign, negative } c = some n) : c.isDigit = true := by
  unfold next? at h
  dsimp only at h
  split at h
  next zero =>
    rw [zero]
    rfl
  next =>
    split at h
    next digit => exact digit
    next => cases h

/--
A numeral that has been followed to its end is one number.
-/
theorem spells_numeral (negative : Bool) (h : follow { phase := .sign, negative } cs = some n)
    (complete : n.isComplete = true) :
    Spells ((if negative then ['-'] else []) ++ cs) n.leaf := by
  intro rest ends
  have signed : scan .between ((if negative then ['-'] else []) ++ cs ++ rest) =
      scan (.numeral { phase := .sign, negative }) (cs ++ rest) := by
    cases negative with
    | true => rfl
    | false =>
      cases cs with
      | nil =>
        cases h
        cases complete
      | cons c cs =>
        obtain ⟨_, next, _⟩ := Option.bind_eq_some_iff.mp h
        exact scan_between_of_digit (isDigit_of_next? next) (cs ++ rest)
  rw [signed, scan_numeral_append h, scan_numeral_of_ends complete ends]

theorem leaf_whole {negative : Bool} {significand : Nat} {value : Int}
    (h : (if negative then -(significand : Int) else significand) = value)
    (exact : IsExact value) :
    leaf { phase := .whole, negative, significand } = .number (.integer value exact) := by
  subst h
  unfold leaf
  rw [if_pos (.inr ⟨rfl, Bool.false_ne_true⟩)]
  exact dif_pos exact

/--
The digits of an integer, which has a sign in front of them if it is negative.
-/
theorem toList_toString (value : Int) :
    (toString value).toList = (if decide (value < 0) then ['-'] else []) ++
      Nat.toDigits 10 value.natAbs := by
  cases value with
  | ofNat m =>
    have sign : decide (Int.ofNat m < 0) = false :=
      decide_eq_false (Int.not_lt.mpr (Int.natCast_nonneg m))
    rw [sign]
    exact Nat.toList_repr
  | negSucc m =>
    rw [decide_eq_true (Int.negSucc_lt_zero m)]
    change ("-" ++ Nat.repr (m + 1)).toList = _
    rw [String.toList_append, Nat.toList_repr]
    rfl

/--
The digits of a number of 64 bits are followed to a numeral without a point.
-/
theorem exists_follow_toDigits {m : Nat} (room : m ≤ capacity) (negative : Bool) :
    ∃ phase, (phase = .whole ∨ m = 0 ∧ phase = .zero) ∧
      follow { phase := .sign, negative } (Nat.toDigits 10 m) =
        some { phase, negative, significand := m } := by
  rcases Nat.eq_zero_or_pos m with rfl | pos
  · exact ⟨.zero, .inr ⟨rfl, rfl⟩, rfl⟩
  · obtain ⟨c, cs, same, digit, ne, others⟩ := exists_toDigits_eq_cons pos
    have value : Nat.ofDigitChars 10 (c :: cs) 0 = m := by
      rw [← same, Nat.ofDigitChars_ten_toDigits]
    rw [same, follow_sign digit ne others (value.trans_le room), value]
    exact ⟨.whole, .inl rfl, rfl⟩

theorem natAbs_le_capacity {value : Int} (exact : IsExact value) : value.natAbs ≤ capacity := by
  unfold IsExact at exact
  unfold capacity
  omega

theorem spells_integer {value : Int} (exact : IsExact value) :
    Spells (toString value).toList (.number (.integer value exact)) := by
  obtain ⟨phase, whole, read⟩ :=
    exists_follow_toDigits (natAbs_le_capacity exact) (decide (value < 0))
  have sign : (if decide (value < 0) then -(value.natAbs : Int) else value.natAbs) = value := by
    split
    next below =>
      rw [decide_eq_true_iff] at below
      omega
    next above =>
      rw [decide_eq_true_iff] at above
      omega
  have complete : isComplete {
      phase, negative := decide (value < 0), significand := value.natAbs } = true := by
    obtain rfl | ⟨_, rfl⟩ := whole
    · rfl
    · rfl
  have spelled := spells_numeral _ read complete
  rw [toList_toString]
  obtain rfl | ⟨none, rfl⟩ := whole
  · rwa [leaf_whole sign exact] at spelled
  · cases Int.natAbs_eq_zero.mp none
    exact spelled

theorem text_of_isFinite (l : Layout) {x : Float} (finite : x.isFinite = true) :
    (l.text x).toList = (if isNegative x then ['-'] else []) ++
      (l.decimal (Decimal.shortest l.tie x)).toList := by
  unfold Layout.text
  rw [Double.isNaN_of_isFinite finite, Double.isInf_of_isFinite finite]
  cases isNegative x with
  | true => simp
  | false => simp

theorem spells_text (n : Number) : Spells n.text.toList (.number n.reread) := by
  cases n with
  | integer value exact => exact spells_integer exact
  | real x finite =>
    obtain ⟨n, read, renders⟩ := exists_follow_decimal
      (Decimal.isShort_shortest Number.layout.tie finite) (isNegative x)
    have complete : n.isComplete = true := by
      unfold isComplete
      obtain phase | phase := renders.phase
      · rw [phase]
      · rw [phase]
    have spelled := spells_numeral (isNegative x) read complete
    rwa [← text_of_isFinite _ finite, leaf_of_renders finite renders] at spelled

/--
A control character is escaped by its number.
-/
theorem scan_control {c : Char} (control : c.toNat < 0x20) (reversed rest : List Char) :
    scan (.quotation { reversed }) (((if c.toNat < 0x10 then "\\u000" else "\\u00") ++
        hexadecimal c.toNat).toList ++ rest) =
      scan (.quotation { reversed := c :: reversed }) rest := by
  rw [← Char.ofNat_toNat c]
  generalize c.toNat = code at control
  interval_cases code
  all_goals rfl

theorem scan_escapedChar (c : Char) (reversed rest : List Char) :
    scan (.quotation { reversed }) ((escapedChar c).toList ++ rest) =
      scan (.quotation { reversed := c :: reversed }) rest := by
  unfold escapedChar
  split
  · rfl
  · rfl
  · rfl
  · rfl
  · rfl
  · rfl
  · rfl
  next quote slash _ _ _ _ _ =>
    split
    next control => exact scan_control control reversed rest
    next seen =>
      rw [String.toList_singleton, List.singleton_append, scan, Mode.step, Quotation.step]
      dsimp only
      unfold Quotation.plain
      rw [if_neg quote, if_neg slash, if_neg seen]
      rfl

theorem scan_escaped (cs reversed rest : List Char) :
    scan (.quotation { reversed }) (cs.flatMap (fun c => (escapedChar c).toList) ++ '"' :: rest) =
      .leaf (.text (String.ofList (reversed.reverse ++ cs))) :: scan .between rest := by
  induction cs generalizing reversed with
  | nil =>
    rw [List.append_nil]
    rfl
  | cons c cs ih =>
    rw [List.flatMap_cons, List.append_assoc, scan_escapedChar, ih, List.reverse_cons,
      List.append_assoc, List.singleton_append]

theorem scan_escapedText (s : String) (rest : List Char) :
    scan .between ((escapedText s).toList ++ rest) = .leaf (.text s) :: scan .between rest := by
  have text : (escapedText s).toList ++ rest =
      '"' :: (s.toList.flatMap (fun c => (escapedChar c).toList) ++ '"' :: rest) := by
    simp [escapedText, String.toList_join, List.flatMap_map]
  have read := scan_escaped s.toList [] rest
  rw [List.reverse_nil, List.nil_append, String.ofList_toList] at read
  rw [text, ← read]
  rfl

end Lexer

/--
A value that can be read.
-/
def Leaf.IsWhole : Leaf → Prop
  | .broken .. => False
  | _ => True

def Leaf.reread : Leaf → Leaf
  | .number n => .number n.reread
  | leaf => leaf

theorem Lexer.spells_print {leaf : Leaf} (whole : leaf.IsWhole) :
    Spells leaf.print.toList leaf.reread := by
  cases leaf with
  | null => exact fun _ _ => rfl
  | flag b =>
    cases b with
    | _ => exact fun _ _ => rfl
  | number n => exact spells_text n
  | text s => exact fun rest _ => scan_escapedText s rest
  | broken => exact whole.elim

namespace Number

theorem ofText_text (n : Number) : Token.ofText n.text = [.leaf (.number n.reread)] := by
  have read := Lexer.spells_text n [] (by simp [Lexer.Ends])
  rwa [List.append_nil] at read

theorem readsBack_iff {n : Number} : n.ReadsBack ↔ n.reread = n := by
  unfold ReadsBack
  rw [ofText_text]
  simp

/--
Only a double can be read as something else than was written.
-/
@[simp]
theorem readsBack_integer {value : Int} (exact : IsExact value) : (integer value exact).ReadsBack :=
  readsBack_iff.mpr rfl

theorem readsBack_real_iff {x : Float} {finite : x.isFinite = true} :
    (real x finite).ReadsBack ↔ Double.reread x = x := by
  rw [readsBack_iff, reread, real.injEq]

end Number

end Stagecraft
