import Stagecraft.Proofs.Decimal.Double
import Stagecraft.Proofs.Tempo.Validation

/-!
This module contains what holds of the tempo of a timing that was accepted. Its bases and its factor
are positive, so its times are not negative. They may still be infinite, since it is only the bases
and the factors that are checked.
-/

namespace Stagecraft

namespace Tempo

structure IsPositive (t : Tempo) : Prop where
  base (bucket : Bucket) : 0 < t.timing.base bucket
  waits : 0 < t.timing.waits
  factor : 0 < t.factor

theorem isPositive_of_ofTiming {timing : Timing} {t : Tempo} (h : ofTiming timing = .ok t) :
    t.IsPositive := by
  obtain ⟨valid, rfl, known⟩ := ofTiming_eq_ok_iff.mp h
  have mem (bucket : Bucket) : (bucket.name, t.timing.base bucket) ∈ t.timing.bases := by
    cases bucket with
    | _ => simp [Timing.bases, Timing.base, Bucket.name]
  refine ⟨?_, ?_, (valid.multipliers _ _ known).2⟩
  · intro bucket
    exact (valid.bases _ (mem bucket)).2
  · apply (valid.bases ("waits", t.timing.waits) _).2
    simp [Timing.bases]

def times (t : Tempo) : List Float :=
  (Bucket.all.map t.timing.base ++ [t.timing.waits]).map (· * t.factor)

theorem runTime_mem_times (t : Tempo) (action : String) : t.runTime action ∈ t.times := by
  unfold runTime
  cases t.bucket action with
  | _ => simp [times, Bucket.all]

theorem zero_le_of_mem_times {t : Tempo} (h : t.IsPositive) {x : Float} (mem : x ∈ t.times) :
    0 ≤ x := by
  obtain ⟨base, known, rfl⟩ := List.mem_map.mp mem
  apply Double.zero_le_mul _ h.factor
  cases List.mem_append.mp known with
  | inl known =>
    obtain ⟨bucket, _, rfl⟩ := List.mem_map.mp known
    exact h.base bucket
  | inr known =>
    rw [List.mem_singleton.mp known]
    exact h.waits

-- A base that is close to the largest double.
example : ∃ t,
    ofTiming {
      ui := .ofBits 0x7FE0000000000000, multipliers := .ofList [("normal", 10.0)] } = .ok t ∧
    (t.runTime "outro").isFinite = false := ⟨_, rfl, rfl⟩

end Tempo

end Stagecraft
