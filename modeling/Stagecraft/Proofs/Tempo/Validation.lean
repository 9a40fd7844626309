import Stagecraft.Table.Lemmas
import Stagecraft.Tempo

/-!
This module contains what the check of a timing looks at, and in which order: first the numbers,
then the mode (`Timing.validate_eq_ok_iff`, `Timing.validate_eq_error_iff`). A timing that passes
has a tempo.
-/

namespace Stagecraft

def IsPositiveNumber (x : Float) : Prop := x.isFinite ∧ 0 < x

theorem ensurePositive_eq_ok_iff {name : String} {value : Float} :
    ensurePositive name value = .ok () ↔ IsPositiveNumber value := by
  unfold ensurePositive IsPositiveNumber
  split
  next positive => simp [positive]
  next other => simp [other]

theorem ensurePositive_eq_error_iff {name : String} {value : Float} {error : Error} :
    ensurePositive name value = .error error ↔
      ¬IsPositiveNumber value ∧ error = .config (.notPositive name value) := by
  unfold ensurePositive IsPositiveNumber
  split
  next positive => simp [positive]
  next other =>
    constructor
    · intro h
      cases h
      exact ⟨other, rfl⟩
    · rintro ⟨_, rfl⟩
      rfl

namespace Timing

/--
The seconds of the buckets and of pauses, in the order in which they are checked.
-/
def bases (t : Timing) : List (String × Float) :=
  [("ui", t.ui), ("events", t.events), ("effects", t.effects), ("waits", t.waits)]

structure IsValid (t : Timing) : Prop where
  bases : ∀ base ∈ t.bases, IsPositiveNumber base.2
  multipliers : ∀ mode factor, t.multipliers.get? mode = some factor → IsPositiveNumber factor
  mode : ∃ factor, t.multipliers.get? t.mode = some factor

/--
The first thing that is wrong with a timing: one of the bases, else the factor of the first mode by
name that has a wrong one, else its own mode.
-/
inductive FirstFlaw (t : Timing) : ConfigError → Prop where
  | base {earlier later : List (String × Float)} {name : String} {value : Float}
    (h : t.bases = earlier ++ (name, value) :: later)
    (good : ∀ base ∈ earlier, IsPositiveNumber base.2) (wrong : ¬IsPositiveNumber value) :
    FirstFlaw t (.notPositive name value)
  | multiplier {mode : String} {factor : Float} (bases : ∀ base ∈ t.bases, IsPositiveNumber base.2)
    (known : t.multipliers.get? mode = some factor) (wrong : ¬IsPositiveNumber factor)
    (least : ∀ other value, t.multipliers.get? other = some value → other < mode →
      IsPositiveNumber value) :
    FirstFlaw t (.notPositive s!"multiplier `{mode}`" factor)
  | mode (bases : ∀ base ∈ t.bases, IsPositiveNumber base.2)
    (multipliers : ∀ mode factor, t.multipliers.get? mode = some factor → IsPositiveNumber factor)
    (unknown : t.multipliers.get? t.mode = none) :
    FirstFlaw t (.unknownMode t.mode t.multipliers.keys)

variable {t : Timing} {error : Error}

/--
The part of the check that does not depend on the mode.
-/
def validateNumbers (t : Timing) : Except Error Unit := do
  ensurePositive "ui" t.ui
  ensurePositive "events" t.events
  ensurePositive "effects" t.effects
  ensurePositive "waits" t.waits
  t.multipliers.toList.forM fun (mode, factor) => ensurePositive s!"multiplier `{mode}`" factor

theorem validate_eq (t : Timing) :
    t.validate = t.validateNumbers >>= fun _ => discard (t.multiplier t.mode) := by
  unfold validate validateNumbers
  simp only [bind_assoc]

theorem validate_of_get? {factor : Float} (known : t.multipliers.get? t.mode = some factor) :
    t.validate = t.validateNumbers := by
  rw [validate_eq]
  unfold multiplier
  rw [known]
  cases t.validateNumbers with
  | ok => rfl
  | error => rfl

theorem forM_bases_eq_ok_iff :
    t.bases.forM (fun base => ensurePositive base.1 base.2) = .ok () ↔
      ∀ base ∈ t.bases, IsPositiveNumber base.2 := by
  rw [forM_eq_ok_iff]
  simp only [ensurePositive_eq_ok_iff]

theorem forM_multipliers_eq_ok_iff :
    t.multipliers.toList.forM (fun (mode, factor) =>
        ensurePositive s!"multiplier `{mode}`" factor) = .ok () ↔
      ∀ mode factor, t.multipliers.get? mode = some factor → IsPositiveNumber factor := by
  rw [forM_eq_ok_iff]
  simp only [ensurePositive_eq_ok_iff, Prod.forall, Entries.mem_toList_iff]

/--
Of the modes whose factors are wrong the first one by name is found, as the table lists them in that
order.
-/
theorem forM_multipliers_eq_error_iff :
    t.multipliers.toList.forM (fun (mode, factor) =>
        ensurePositive s!"multiplier `{mode}`" factor) = .error error ↔
      ∃ mode factor, t.multipliers.get? mode = some factor ∧ ¬IsPositiveNumber factor ∧
        (∀ other value, t.multipliers.get? other = some value → other < mode →
          IsPositiveNumber value) ∧
        error = .config (.notPositive s!"multiplier `{mode}`" factor) := by
  rw [forM_eq_error_iff]
  simp only [ensurePositive_eq_ok_iff, ensurePositive_eq_error_iff, ← Entries.mem_toList_iff]
  constructor
  · rintro ⟨earlier, ⟨mode, factor⟩, later, same, good, wrong, flaw⟩
    obtain ⟨_, above⟩ := Entries.lt_of_toList_eq same
    refine ⟨mode, factor, ?_, wrong, ?_, flaw⟩
    · simp [same]
    · intro other value mem lt
      rw [same, List.mem_append, List.mem_cons] at mem
      rcases mem with mem | this | mem
      · exact good (other, value) mem
      · cases this
        exact absurd lt (String.lt_irrefl mode)
      · exact absurd lt (String.lt_asymm (above _ mem))
  · rintro ⟨mode, factor, mem, wrong, least, flaw⟩
    obtain ⟨earlier, later, same⟩ := List.append_of_mem mem
    refine ⟨earlier, (mode, factor), later, same, ?_, wrong, flaw⟩
    intro pair mem
    apply least pair.1 pair.2
    · simp [same, mem]
    · exact (Entries.lt_of_toList_eq same).1 pair mem

theorem discard_multiplier_eq_ok_iff :
    discard (t.multiplier t.mode) = .ok () ↔ ∃ factor, t.multipliers.get? t.mode = some factor := by
  unfold multiplier
  cases t.multipliers.get? t.mode with
  | some factor => exact ⟨fun _ => ⟨factor, rfl⟩, fun _ => rfl⟩
  | none => simp [discard, Functor.mapConst, Except.map]

theorem discard_multiplier_eq_error_iff :
    discard (t.multiplier t.mode) = .error error ↔
      t.multipliers.get? t.mode = none ∧
        error = .config (.unknownMode t.mode t.multipliers.keys) := by
  unfold multiplier
  cases t.multipliers.get? t.mode with
  | some factor => simp [discard, Functor.mapConst, Except.map]
  | none => simp [discard, Functor.mapConst, Except.map, eq_comm]

theorem validate_eq_forM (t : Timing) :
    t.validate = t.bases.forM (fun base => ensurePositive base.1 base.2) >>= fun _ =>
      t.multipliers.toList.forM (fun (mode, factor) =>
        ensurePositive s!"multiplier `{mode}`" factor) >>= fun _ =>
          discard (t.multiplier t.mode) := by
  unfold validate bases
  simp only [List.forM, bind_assoc, pure_bind]

theorem validate_eq_ok_iff : t.validate = .ok () ↔ t.IsValid := by
  rw [validate_eq_forM]
  constructor
  · intro h
    obtain ⟨_, bases, h⟩ := exists_of_bind_eq_ok h
    obtain ⟨_, multipliers, mode⟩ := exists_of_bind_eq_ok h
    constructor
    · exact forM_bases_eq_ok_iff.mp bases
    · exact forM_multipliers_eq_ok_iff.mp multipliers
    · exact discard_multiplier_eq_ok_iff.mp mode
  · intro h
    rw [bind_of_eq_ok (forM_bases_eq_ok_iff.mpr h.bases),
      bind_of_eq_ok (forM_multipliers_eq_ok_iff.mpr h.multipliers)]
    exact discard_multiplier_eq_ok_iff.mpr h.mode

theorem validate_eq_error_iff :
    t.validate = .error error ↔ ∃ cause, error = .config cause ∧ t.FirstFlaw cause := by
  rw [validate_eq_forM]
  constructor
  · intro h
    rcases error_or_of_bind_eq_error h with base | ⟨_, bases, h⟩
    · obtain ⟨earlier, ⟨name, value⟩, later, same, good, failed⟩ := forM_eq_error_iff.mp base
      obtain ⟨wrong, rfl⟩ := ensurePositive_eq_error_iff.mp failed
      simp only [ensurePositive_eq_ok_iff] at good
      exact ⟨_, rfl, .base same good wrong⟩
    replace bases := forM_bases_eq_ok_iff.mp bases
    rcases error_or_of_bind_eq_error h with multiplier | ⟨_, multipliers, mode⟩
    · obtain ⟨mode, factor, known, wrong, least, rfl⟩ :=
        forM_multipliers_eq_error_iff.mp multiplier
      exact ⟨_, rfl, .multiplier bases known wrong least⟩
    · replace multipliers := forM_multipliers_eq_ok_iff.mp multipliers
      obtain ⟨unknown, rfl⟩ := discard_multiplier_eq_error_iff.mp mode
      exact ⟨_, rfl, .mode bases multipliers unknown⟩
  · rintro ⟨cause, rfl, flaw⟩
    cases flaw with
    | base same good wrong =>
      apply bind_of_eq_error
      apply forM_eq_error_iff.mpr
      refine ⟨_, _, _, same, ?_, ensurePositive_eq_error_iff.mpr ⟨wrong, rfl⟩⟩
      simpa only [ensurePositive_eq_ok_iff] using good
    | multiplier bases known wrong least =>
      rw [bind_of_eq_ok (forM_bases_eq_ok_iff.mpr bases)]
      apply bind_of_eq_error
      exact forM_multipliers_eq_error_iff.mpr ⟨_, _, known, wrong, least, rfl⟩
    | mode bases multipliers unknown =>
      rw [bind_of_eq_ok (forM_bases_eq_ok_iff.mpr bases),
        bind_of_eq_ok (forM_multipliers_eq_ok_iff.mpr multipliers)]
      exact discard_multiplier_eq_error_iff.mpr ⟨unknown, rfl⟩

end Timing

namespace Tempo

variable {timing : Timing} {t : Tempo} {error : Error}

theorem ofTiming_of_error (h : timing.validate = .error error) :
    ofTiming timing = .error error := by
  unfold ofTiming
  rw [h]
  rfl

theorem ofTiming_eq_ok_iff :
    ofTiming timing = .ok t ↔
      timing.IsValid ∧ t.timing = timing ∧
        timing.multipliers.get? timing.mode = some t.factor := by
  rw [← Timing.validate_eq_ok_iff]
  unfold ofTiming Timing.multiplier
  constructor
  · intro h
    obtain ⟨_, valid, h⟩ := exists_of_bind_eq_ok h
    obtain ⟨factor, found, h⟩ := exists_of_bind_eq_ok h
    cases h
    split at found
    next known =>
      cases found
      exact ⟨valid, rfl, known⟩
    · cases found
  · rintro ⟨valid, rfl, known⟩
    rw [valid, known]
    rfl

theorem exists_ofTiming_iff :
    (∃ tempo, ofTiming timing = .ok tempo) ↔ timing.validate = .ok () := by
  rw [Timing.validate_eq_ok_iff]
  simp only [ofTiming_eq_ok_iff]
  constructor
  · rintro ⟨tempo, valid, _⟩
    exact valid
  · intro valid
    obtain ⟨factor, known⟩ := valid.mode
    exact ⟨{ timing, factor }, valid, rfl, known⟩

end Tempo

end Stagecraft
