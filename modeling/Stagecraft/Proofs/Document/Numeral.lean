import Stagecraft.Document.Lexer
import Stagecraft.Proofs.Decimal.Evaluation

/-!
This module contains the reading of written numbers. The digits of a numeral are read one by one,
and as there is room for all digits of a double, what has been read at its end is the decimal that
was written. It is then worked out in doubles, and the result may be another double.
-/

namespace Stagecraft

/--
The decimal that is shown if the digits of `d` are laid out: those of a whole number that is written
without an exponent are followed by zeros up to the point, and by one behind it.
-/
def Layout.shown (l : Layout) (d : Decimal) : Decimal :=
  if l.positional (d.exponent + (Nat.toDigits 10 d.coefficient).length - 1) ∧ 0 ≤ d.exponent then
    ⟨10 * (10 ^ d.exponent.toNat * d.coefficient), -1⟩
  else
    d

theorem Decimal.IsShort.coefficient_shown_le {d : Decimal} (h : d.IsShort) :
    (Number.layout.shown d).coefficient ≤ 10 ^ 17 := by
  unfold Layout.shown
  split
  next whole =>
    obtain ⟨positional, nonneg⟩ := whole
    have bound := lt_ten_pow_length d.coefficient
    generalize (Nat.toDigits 10 d.coefficient).length = places at positional bound
    have point : -5 ≤ d.exponent + places - 1 ∧ d.exponent + places - 1 ≤ 15 := by
      simpa [Number.layout] using positional
    dsimp only
    calc
      10 * (10 ^ d.exponent.toNat * d.coefficient) ≤
          10 * (10 ^ d.exponent.toNat * 10 ^ places) := by gcongr
      _ = 10 ^ (d.exponent.toNat + places + 1) := by ring
      _ ≤ 10 ^ 17 := Nat.pow_le_pow_right (by decide) (by omega)
  · exact h.few

/--
The double as which the text of a double is read.
-/
def Double.reread (x : Float) : Float :=
  let size := (Number.layout.shown (Decimal.shortest Number.layout.tie x)).evaluate
  if isNegative x then -size else size

theorem Double.isFinite_reread {x : Float} (finite : x.isFinite = true) :
    (reread x).isFinite = true := by
  have short := Decimal.isShort_shortest Number.layout.tie finite
  have size : (Number.layout.shown
      (Decimal.shortest Number.layout.tie x)).evaluate.isFinite = true := by
    have fits := short.coefficient_shown_le
    unfold Layout.shown at fits ⊢
    split
    next whole =>
      rw [if_pos whole] at fits
      exact Decimal.isFinite_evaluate_of_nonpos (fits.trans (by decide)) (Int.negSucc_lt_zero 0).le
    · exact Decimal.isFinite_evaluate_shortest finite
  obtain ⟨s, r, size⟩ := exists_hasSize size
  unfold reread
  dsimp only
  split
  · exact size.neg.isFinite
  · exact size.isFinite

namespace Lexer

namespace Numeral

def follow (n : Numeral) (cs : List Char) : Option Numeral := cs.foldlM next? n

theorem follow_nil (n : Numeral) : n.follow [] = some n := rfl

theorem follow_cons (n : Numeral) (c : Char) (cs : List Char) :
    n.follow (c :: cs) = (n.next? c).bind fun n => n.follow cs := by
  rfl

theorem follow_append (n : Numeral) (cs ds : List Char) :
    n.follow (cs ++ ds) = (n.follow cs).bind fun n => n.follow ds := by
  unfold follow
  rw [List.foldlM_append]
  rfl

def AreDigits (cs : List Char) : Prop := ∀ c ∈ cs, c.isDigit = true

variable {cs : List Char}

theorem le_ofDigitChars (cs : List Char) (value : ℕ) : value ≤ Nat.ofDigitChars 10 cs value := by
  rw [Nat.ofDigitChars_eq_ofDigitChars_zero]
  exact (Nat.le_mul_of_pos_left value (by positivity)).trans (Nat.le_add_right _ _)

theorem ofDigitChars_cons (c : Char) (cs : List Char) (value : ℕ) :
    Nat.ofDigitChars 10 (c :: cs) value = Nat.ofDigitChars 10 cs (10 * value + digitValue c) :=
  Nat.ofDigitChars_cons

/--
A run of digits in a part of a numeral that takes them one after the other, as long as there is room
for them.
-/
theorem follow_digits (part : ℕ → ℕ → Numeral)
    (step : ∀ value count (c : Char), c.isDigit = true → 10 * value + digitValue c ≤ capacity →
      (part value count).next? c = some (part (10 * value + digitValue c) (count + 1)))
    (digits : AreDigits cs) (value count : ℕ) (room : Nat.ofDigitChars 10 cs value ≤ capacity) :
    (part value count).follow cs =
      some (part (Nat.ofDigitChars 10 cs value) (count + cs.length)) := by
  induction cs generalizing value count with
  | nil => rw [follow_nil, Nat.ofDigitChars_nil, List.length_nil, Nat.add_zero]
  | cons c cs ih =>
    obtain ⟨digit, digits⟩ := List.forall_mem_cons.mp digits
    rw [ofDigitChars_cons] at room ⊢
    rw [follow_cons, step value count c digit ((le_ofDigitChars cs _).trans room),
      Option.bind_some, ih digits _ _ room, List.length_cons, Nat.add_assoc, Nat.add_comm 1]

variable {negative falling : Bool} {significand exponent : ℕ} {shift : ℤ}

theorem follow_whole (digits : AreDigits cs)
    (room : Nat.ofDigitChars 10 cs significand ≤ capacity) :
    follow { phase := .whole, negative, significand } cs =
      some { phase := .whole, negative, significand := Nat.ofDigitChars 10 cs significand } := by
  apply follow_digits (fun significand _ => { phase := .whole, negative, significand }) _ digits
    significand 0 room
  intro value count c digit room
  simp [next?, pushWhole, grown?, digit, room.not_gt]

theorem follow_fraction (digits : AreDigits cs)
    (room : Nat.ofDigitChars 10 cs significand ≤ capacity) :
    follow { phase := .fraction, negative, significand, shift } cs =
      some {
        phase := .fraction, negative, significand := Nat.ofDigitChars 10 cs significand
        shift := shift - cs.length } := by
  have read := follow_digits (fun significand places => {
    phase := .fraction, negative, significand, shift := shift - places }) ?_ digits significand 0
    room
  · rw [Nat.cast_zero, sub_zero, Nat.zero_add] at read
    exact read
  · intro value count c digit room
    simp [next?, pushFraction, grown?, digit, room.not_gt, sub_sub]

theorem follow_exponent (digits : AreDigits cs)
    (room : Nat.ofDigitChars 10 cs exponent ≤ capacity) :
    follow { phase := .exponent, negative, significand, shift, falling, exponent } cs =
      some {
        phase := .exponent, negative, significand, shift, falling
        exponent := Nat.ofDigitChars 10 cs exponent } := by
  apply follow_digits (fun exponent _ => {
    phase := .exponent, negative, significand, shift, falling, exponent }) _ digits exponent 0 room
  intro value count c digit room
  simp [next?, pushExponent, digit]

theorem follow_sign {c : Char} (digit : c.isDigit = true) (ne : c ≠ '0') (digits : AreDigits cs)
    (room : Nat.ofDigitChars 10 (c :: cs) 0 ≤ capacity) :
    follow { phase := .sign, negative } (c :: cs) =
      some { phase := .whole, negative, significand := Nat.ofDigitChars 10 (c :: cs) 0 } := by
  rw [ofDigitChars_cons, Nat.mul_zero, Nat.zero_add] at room ⊢
  have fits : digitValue c ≤ capacity := (le_ofDigitChars cs _).trans room
  have first : next? { phase := .sign, negative } c =
      some { phase := .whole, negative, significand := digitValue c } := by
    simp [next?, pushWhole, grown?, digit, ne, fits.not_gt]
  rw [follow_cons, first, Option.bind_some, follow_whole digits room]

theorem follow_point {phase : Phase} (h : phase = .zero ∨ phase = .whole) (digits : AreDigits cs)
    (ne : cs ≠ []) (room : Nat.ofDigitChars 10 cs significand ≤ capacity) :
    follow { phase, negative, significand } ('.' :: cs) =
      some {
        phase := .fraction, negative, significand := Nat.ofDigitChars 10 cs significand
        shift := -cs.length } := by
  have point : next? { phase, negative, significand } '.' =
      some { phase := .point, negative, significand } := by
    obtain rfl | rfl := h
    · rfl
    · rfl
  obtain ⟨c, cs, rfl⟩ := List.exists_cons_of_ne_nil ne
  obtain ⟨digit, digits⟩ := List.forall_mem_cons.mp digits
  rw [ofDigitChars_cons] at room ⊢
  have fits : 10 * significand + digitValue c ≤ capacity := (le_ofDigitChars cs _).trans room
  have first : next? { phase := .point, negative, significand } c =
      some {
        phase := .fraction, negative, significand := 10 * significand + digitValue c
        shift := -1 } := by
    simp [next?, pushFraction, grown?, digit, fits.not_gt]
  rw [follow_cons, point, Option.bind_some, follow_cons, first, Option.bind_some,
    follow_fraction digits room, List.length_cons, Nat.cast_succ, neg_add']
  congr 2
  ring

theorem follow_mark {phase : Phase} (h : phase = .whole ∨ phase = .fraction) (falling : Bool)
    (digits : AreDigits cs) (ne : cs ≠ []) (room : Nat.ofDigitChars 10 cs 0 ≤ capacity) :
    follow { phase, negative, significand, shift }
        ('e' :: (if falling then '-' else '+') :: cs) =
      some {
        phase := .exponent, negative, significand, shift, falling
        exponent := Nat.ofDigitChars 10 cs 0 } := by
  have mark : next? { phase, negative, significand, shift } 'e' =
      some { phase := .mark, negative, significand, shift } := by
    obtain rfl | rfl := h
    · rfl
    · rfl
  have sign : next? { phase := .mark, negative, significand, shift }
      (if falling then '-' else '+') =
        some { phase := .markSign, negative, significand, shift, falling } := by
    cases falling with
    | _ => rfl
  obtain ⟨c, cs, rfl⟩ := List.exists_cons_of_ne_nil ne
  obtain ⟨digit, digits⟩ := List.forall_mem_cons.mp digits
  rw [ofDigitChars_cons, Nat.mul_zero, Nat.zero_add] at room ⊢
  have first : next? { phase := .markSign, negative, significand, shift, falling } c =
      some {
        phase := .exponent, negative, significand, shift, falling
        exponent := digitValue c } := by
    simp [next?, pushExponent, digit]
  rw [follow_cons, mark, Option.bind_some, follow_cons, sign, Option.bind_some, follow_cons, first,
    Option.bind_some, follow_exponent digits room]

theorem areDigits_toDigits (n : ℕ) : AreDigits (Nat.toDigits 10 n) :=
  fun _ mem => Nat.isDigit_of_mem_toDigits (by decide) (by decide) mem

/--
The digits of a positive number do not begin with zero.
-/
theorem exists_toDigits_eq_cons {n : ℕ} (pos : 0 < n) :
    ∃ c cs, Nat.toDigits 10 n = c :: cs ∧ c.isDigit = true ∧ c ≠ '0' ∧ AreDigits cs := by
  induction n using Nat.strongRecOn with
  | ind n ih =>
    rcases Nat.lt_or_ge n 10 with lt | le
    · refine ⟨n.digitChar, [], Nat.toDigits_of_lt_base lt, ?_, ?_, by simp [AreDigits]⟩
      · simpa [Nat.isDigit_digitChar] using lt
      · simpa using pos.ne'
    · obtain ⟨c, cs, same, digit, ne, _⟩ := ih (n / 10) (by omega) (by omega)
      have all := areDigits_toDigits n
      have digits : Nat.toDigits 10 n = c :: (cs ++ [(n % 10).digitChar]) := by
        rw [Nat.toDigits_of_base_le (by decide) le, same]
        rfl
      rw [digits] at all
      exact ⟨c, _, digits, digit, ne, (List.forall_mem_cons.mp all).2⟩

theorem areDigits_zeros (count : ℕ) : AreDigits (List.replicate count '0') := by
  intro c mem
  rw [List.eq_of_mem_replicate mem]
  rfl

theorem AreDigits.append {ds : List Char} (h : AreDigits cs) (h' : AreDigits ds) :
    AreDigits (cs ++ ds) :=
  List.forall_mem_append.mpr ⟨h, h'⟩

theorem follow_small (count : ℕ) (digits : AreDigits cs) (some : cs ≠ [])
    (room : Nat.ofDigitChars 10 cs 0 ≤ capacity) :
    follow { phase := .sign, negative } ('0' :: '.' :: (List.replicate count '0' ++ cs)) =
      .some {
        phase := .fraction, negative, significand := Nat.ofDigitChars 10 cs 0
        shift := -((count + cs.length : ℕ) : ℤ) } := by
  have zero : next? { phase := .sign, negative } '0' = .some { phase := .zero, negative } := rfl
  have value : Nat.ofDigitChars 10 (List.replicate count '0' ++ cs) 0 =
      Nat.ofDigitChars 10 cs 0 := by
    rw [Nat.ofDigitChars_append, Nat.ofDigitChars_replicate_zero, Nat.mul_zero]
  rw [follow_cons, zero, Option.bind_some,
    follow_point (.inl rfl) ((areDigits_zeros count).append digits) (by simp [some])
      (value.trans_le room), value, List.length_append, List.length_replicate]

variable {c : Char}

theorem follow_large (count : ℕ) (digit : c.isDigit = true) (ne : c ≠ '0') (digits : AreDigits cs)
    (room : 10 * (10 ^ count * Nat.ofDigitChars 10 (c :: cs) 0) ≤ capacity) :
    follow { phase := .sign, negative } (c :: cs ++ List.replicate count '0' ++ ['.', '0']) =
      some {
        phase := .fraction, negative
        significand := 10 * (10 ^ count * Nat.ofDigitChars 10 (c :: cs) 0), shift := -1 } := by
  have value : Nat.ofDigitChars 10 (c :: (cs ++ List.replicate count '0')) 0 =
      10 ^ count * Nat.ofDigitChars 10 (c :: cs) 0 := by
    rw [← List.cons_append, Nat.ofDigitChars_append, Nat.ofDigitChars_replicate_zero]
  rw [follow_append, List.cons_append, follow_sign digit ne (digits.append (areDigits_zeros count))
    (by omega), Option.bind_some, value]
  exact follow_point (.inr rfl) (areDigits_zeros 1) (by simp) room

theorem follow_split (negative : Bool) {k : ℕ} (digit : c.isDigit = true) (ne : c ≠ '0')
    (digits : AreDigits cs) (lt : k < cs.length)
    (room : Nat.ofDigitChars 10 (c :: cs) 0 ≤ capacity) :
    follow { phase := .sign, negative } (c :: cs.take k ++ '.' :: cs.drop k) =
      some {
        phase := .fraction, negative, significand := Nat.ofDigitChars 10 (c :: cs) 0
        shift := -((cs.length - k : ℕ) : ℤ) } := by
  have before : AreDigits (cs.take k) := fun c mem => digits c (List.mem_of_mem_take mem)
  have after : AreDigits (cs.drop k) := fun c mem => digits c (List.mem_of_mem_drop mem)
  have value : Nat.ofDigitChars 10 (cs.drop k) (Nat.ofDigitChars 10 (c :: cs.take k) 0) =
      Nat.ofDigitChars 10 (c :: cs) 0 := by
    rw [← Nat.ofDigitChars_append, List.cons_append, List.take_append_drop]
  rw [← value] at room
  rw [follow_append, follow_sign digit ne before ((le_ofDigitChars _ _).trans room),
    Option.bind_some, follow_point (.inr rfl) after (by simpa using lt) room, value,
    List.length_drop]

theorem follow_scaled (negative falling : Bool) {power : ℕ} (small : power ≤ capacity)
    (digit : c.isDigit = true) (ne : c ≠ '0') (digits : AreDigits cs)
    (room : Nat.ofDigitChars 10 (c :: cs) 0 ≤ capacity) :
    let fraction := if cs = [] then [] else '.' :: cs
    let mark := if falling then '-' else '+'
    follow { phase := .sign, negative }
        (c :: fraction ++ 'e' :: mark :: Nat.toDigits 10 power) =
      some {
        phase := .exponent, negative, significand := Nat.ofDigitChars 10 (c :: cs) 0
        shift := -cs.length, falling, exponent := power } := by
  intro fraction mark
  have value : Nat.ofDigitChars 10 (Nat.toDigits 10 power) 0 = power :=
    Nat.ofDigitChars_ten_toDigits
  by_cases none : cs = []
  · subst none
    have first : follow { phase := .sign, negative } (c :: fraction) = _ :=
      follow_sign digit ne digits room
    rw [follow_append, first, Option.bind_some, follow_mark (.inl rfl) falling
      (areDigits_toDigits _) Nat.toDigits_ne_nil (value.trans_le small), value]
    rfl
  · have first := follow_split negative digit ne digits (List.length_pos_iff.mpr none) room
    have text : c :: fraction = c :: cs.take 0 ++ '.' :: cs.drop 0 := by simp [fraction, none]
    rw [follow_append, text, first, Option.bind_some, follow_mark (.inr rfl) falling
      (areDigits_toDigits _) Nat.toDigits_ne_nil (value.trans_le small), value]
    rfl

/--
What has been read is the decimal `d`, in a form that is not taken for an integer.
-/
structure Renders (n : Numeral) (d : Decimal) (negative : Bool) : Prop where
  phase : n.phase = .fraction ∨ n.phase = .exponent
  negative : n.negative = negative
  exponent_le : n.exponent ≤ highest
  decimal : n.decimal = d

variable {d : Decimal}

theorem renders_fraction (negative : Bool) (h : d = ⟨significand, shift⟩) :
    Renders { phase := .fraction, negative, significand, shift } d negative := by
  subst h
  exact ⟨.inl rfl, rfl, Nat.zero_le _, congrArg (Decimal.mk significand) (add_zero shift)⟩

theorem exists_follow_position {l : Layout} (whole : l.whole = ".0") (pos : 0 < d.coefficient)
    (room : d.coefficient ≤ capacity)
    (fits : 0 ≤ d.exponent → 10 * (10 ^ d.exponent.toNat * d.coefficient) ≤ capacity)
    (negative : Bool) :
    let digits := Nat.toDigits 10 d.coefficient
    ∃ n, follow { phase := .sign, negative }
        (l.position digits (d.exponent + digits.length)).toList = some n ∧
      n.Renders (if 0 ≤ d.exponent then ⟨10 * (10 ^ d.exponent.toNat * d.coefficient), -1⟩ else d)
        negative := by
  intro digits
  obtain ⟨c, cs, same, digit, ne, others⟩ := exists_toDigits_eq_cons pos
  have value : Nat.ofDigitChars 10 (c :: cs) 0 = d.coefficient := by
    rw [← same, Nat.ofDigitChars_ten_toDigits]
  rw [show digits = c :: cs from same]
  generalize point : d.exponent + ((c :: cs).length : ℤ) = p
  rw [List.length_cons] at point
  unfold Layout.position
  rw [whole]
  split
  next small =>
    have text : ("0." ++ zeros (-p).toNat ++ String.ofList (c :: cs)).toList =
        '0' :: '.' :: (List.replicate (-p).toNat '0' ++ c :: cs) := by
      simp [zeros]
    rw [text, follow_small (-p).toNat (List.forall_mem_cons.mpr ⟨digit, others⟩)
      (List.cons_ne_nil c cs) (value.trans_le room), value, if_neg (by omega)]
    refine ⟨_, rfl, renders_fraction negative (congrArg (Decimal.mk d.coefficient) ?_)⟩
    rw [List.length_cons]
    omega
  next positive =>
    obtain ⟨k, rfl⟩ : ∃ k : ℕ, p = k + 1 := ⟨p.toNat - 1, by omega⟩
    rw [show ((k : ℤ) + 1).toNat = k + 1 from rfl]
    split
    next large =>
      rw [List.length_cons] at large ⊢
      have text : (String.ofList (c :: cs) ++ zeros (k + 1 - (cs.length + 1)) ++ ".0").toList =
          c :: cs ++ List.replicate (k + 1 - (cs.length + 1)) '0' ++ ['.', '0'] := by
        simp [zeros]
      have count : k + 1 - (cs.length + 1) = d.exponent.toNat := by omega
      rw [text, count, follow_large _ digit ne others (value ▸ fits (by omega)), value,
        if_pos (by omega)]
      exact ⟨_, rfl, renders_fraction negative rfl⟩
    next middle =>
      rw [List.length_cons] at middle
      have text : (String.ofList ((c :: cs).take (k + 1)) ++ "." ++
          String.ofList ((c :: cs).drop (k + 1))).toList = c :: cs.take k ++ '.' :: cs.drop k := by
        simp
      rw [text, follow_split negative digit ne others (by omega) (value.trans_le room), value,
        if_neg (by omega)]
      refine ⟨_, rfl, renders_fraction negative (congrArg (Decimal.mk d.coefficient) ?_)⟩
      omega

theorem exists_follow_scale {l : Layout} (plus : l.plus = "+") (pos : 0 < d.coefficient)
    (room : d.coefficient ≤ capacity) (negative : Bool) :
    let digits := Nat.toDigits 10 d.coefficient
    (d.exponent + digits.length - 1).natAbs ≤ highest →
    ∃ n, follow { phase := .sign, negative }
        (l.scale digits (d.exponent + digits.length - 1)).toList = some n ∧
      n.Renders d negative := by
  intro digits small
  obtain ⟨c, cs, same, digit, ne, others⟩ := exists_toDigits_eq_cons pos
  have value : Nat.ofDigitChars 10 (c :: cs) 0 = d.coefficient := by
    rw [← same, Nat.ofDigitChars_ten_toDigits]
  rw [show digits = c :: cs from same] at small ⊢
  generalize power : d.exponent + ((c :: cs).length : ℤ) - 1 = e at small
  rw [List.length_cons] at power
  have text : (l.scale (c :: cs) e).toList =
      c :: (if cs = [] then [] else '.' :: cs) ++
        'e' :: (if decide (e < 0) then '-' else '+') :: Nat.toDigits 10 e.natAbs := by
    unfold Layout.scale
    rw [plus]
    cases cs with
    | nil =>
      by_cases falling : e < 0
      · simp [falling]
      · simp [falling]
    | cons =>
      by_cases falling : e < 0
      · simp [falling]
      · simp [falling]
  have read := follow_scaled negative (decide (e < 0)) (small.trans (by decide)) digit ne others
    (value.trans_le room)
  dsimp only at read
  rw [text, read, value]
  refine ⟨_, rfl, .inr rfl, rfl, small, ?_⟩
  unfold decimal
  rw [Decimal.signed_natAbs]
  apply congrArg (Decimal.mk d.coefficient)
  dsimp only
  omega

/--
The digits of a number are read as the decimal that they show, whether they are written with an
exponent or not.
-/
theorem exists_follow_decimal (short : d.IsShort) (negative : Bool) :
    ∃ n, follow { phase := .sign, negative } (Number.layout.decimal d).toList = some n ∧
      n.Renders (Number.layout.shown d) negative := by
  have fits := short.coefficient_shown_le
  obtain ⟨few, near, rfl | pos⟩ := short
  · exact ⟨{ phase := .fraction, negative, shift := -1 }, rfl, .inl rfl, rfl, Nat.zero_le _, rfl⟩
  · have room : d.coefficient ≤ capacity := few.trans (by decide)
    have places : (Nat.toDigits 10 d.coefficient).length ≤ 18 := by
      rw [Nat.length_toDigits_le_iff (by decide) (by decide)]
      exact few.trans_lt (by decide)
    unfold Layout.decimal
    unfold Layout.shown at fits ⊢
    dsimp only
    split
    next positional =>
      rw [sub_add_cancel]
      simp only [positional, true_and] at fits ⊢
      apply exists_follow_position rfl pos room
      intro whole
      rw [if_pos whole] at fits
      exact fits.trans (by decide)
    next scaled =>
      rw [if_neg fun whole => scaled whole.1]
      apply exists_follow_scale rfl pos room
      unfold highest
      omega

theorem leaf_of_renders {n : Numeral} {x : Float} (finite : x.isFinite = true)
    (h : n.Renders (Number.layout.shown (Decimal.shortest Number.layout.tie x)) (isNegative x)) :
    n.leaf = .number (.real (Double.reread x) (Double.isFinite_reread finite)) := by
  have read : n.leaf = n.real := by
    unfold leaf
    rw [if_neg]
    obtain phase | phase := h.phase
    · simp [phase]
    · simp [phase]
  have value : (if n.negative then -n.size else n.size) = Double.reread x := by
    unfold size
    rw [if_pos h.exponent_le, h.decimal, h.negative]
    rfl
  rw [read]
  unfold real
  simp only [value]
  rw [dif_pos (Double.isFinite_reread finite)]

end Numeral

end Lexer

end Stagecraft
