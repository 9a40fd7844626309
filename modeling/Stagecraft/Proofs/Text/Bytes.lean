import Mathlib.Data.String.Basic

/-!
This module contains the order of texts by their bytes. It is the order of their characters, so the
keys of a table ascend by their bytes, too.
-/

namespace Stagecraft

def bytes (s : String) : List UInt8 := s.toByteArray.data.toList

theorem bytes_eq (s : String) : bytes s = s.toList.flatMap String.utf8EncodeChar := by
  unfold bytes
  rw [← String.utf8Encode_toList, List.utf8Encode]
  simp

/--
Of two characters the smaller one comes first, whatever follows them: it has fewer bytes and begins
with a smaller one, or the first bytes in which the two differ decide.
-/
theorem utf8EncodeChar_append_lt {c d : Char} (h : c < d) (cs ds : List UInt8) :
    String.utf8EncodeChar c ++ cs < String.utf8EncodeChar d ++ ds := by
  have lt : c.val.toNat < d.val.toNat := h
  have bound : d.val.toNat < 0x110000 := by
    have := d.valid
    unfold UInt32.isValidChar Nat.isValidChar at this
    omega
  unfold String.utf8EncodeChar
  dsimp only
  generalize c.val.toNat = m at lt
  generalize d.val.toNat = n at lt bound
  by_cases wide : 0xFFFF < m
  · repeat rw [if_neg (by omega)]
    simp only [List.cons_append, List.nil_append, List.cons_lt_cons_iff, UInt8.lt_iff_toNat_lt,
      ← UInt8.toNat_inj, UInt8.toNat_ofNat']
    obtain first | first : m / 262144 < n / 262144 ∨ m / 262144 = n / 262144 := by omega
    · left
      omega
    refine .inr ⟨by omega, ?_⟩
    obtain second | second : m / 4096 < n / 4096 ∨ m / 4096 = n / 4096 := by omega
    · left
      omega
    refine .inr ⟨by omega, ?_⟩
    obtain third | third : m / 64 < n / 64 ∨ m / 64 = n / 64 := by omega
    · left
      omega
    exact .inr ⟨by omega, .inl (by omega)⟩
  · split_ifs
    all_goals
      simp only [List.cons_append, List.nil_append, List.cons_lt_cons_iff, UInt8.lt_iff_toNat_lt,
        ← UInt8.toNat_inj, UInt8.toNat_ofNat']
      omega

theorem flatMap_utf8EncodeChar_lt {cs ds : List Char} (h : cs < ds) :
    cs.flatMap String.utf8EncodeChar < ds.flatMap String.utf8EncodeChar := by
  induction cs generalizing ds with
  | nil =>
    cases ds with
    | nil => exact absurd h (List.not_lt_nil [])
    | cons d ds =>
      obtain ⟨byte, bytes, some⟩ :=
        List.exists_cons_of_ne_nil (String.utf8EncodeChar_ne_nil (c := d))
      rw [List.flatMap_cons, some]
      exact List.nil_lt_cons byte _
  | cons c cs ih =>
    cases ds with
    | nil => exact absurd h (List.not_lt_nil _)
    | cons d ds =>
      rw [List.flatMap_cons, List.flatMap_cons]
      rcases List.cons_lt_cons_iff.mp h with lt | ⟨rfl, lt⟩
      · exact utf8EncodeChar_append_lt lt _ _
      · exact List.append_left_lt (ih lt)

theorem bytes_lt_bytes {a b : String} (h : a < b) : bytes a < bytes b := by
  rw [bytes_eq, bytes_eq]
  exact flatMap_utf8EncodeChar_lt (String.lt_iff.mp h)

theorem bytes_lt_bytes_iff {a b : String} : bytes a < bytes b ↔ a < b := by
  constructor
  · intro lt
    rcases lt_trichotomy a b with less | rfl | greater
    · exact less
    · exact absurd lt (List.lt_irrefl _)
    · exact absurd lt (List.lt_asymm (bytes_lt_bytes greater))
  · exact bytes_lt_bytes

theorem bytes_le_bytes_iff {a b : String} : bytes a ≤ bytes b ↔ a ≤ b := by
  rw [← List.not_lt, bytes_lt_bytes_iff, String.not_lt]

end Stagecraft
