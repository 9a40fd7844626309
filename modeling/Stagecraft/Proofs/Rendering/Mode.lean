import Stagecraft.Outcome
import Stagecraft.Proofs.Document.Kinds
import Stagecraft.Proofs.Tempo.Validation

/-!
This module contains what becomes of a rendering when it is told which mode to play in: the same as
if its settings had named the mode. The settings are looked at twice in the one case and once in the
other, but what is wrong with them is found in the same order.
-/

namespace Stagecraft

namespace Settings

/--
The settings with another mode to play in, which may be unknown.
-/
def inMode (settings : Settings) (mode : String) : Settings :=
  { settings with timing := { settings.timing with mode } }

theorem write_eq (settings : Settings) :
    schema.write settings = .object [
      (.text "timing", .object [
        (.text "ui", .ofFloat settings.timing.ui),
        (.text "events", .ofFloat settings.timing.events),
        (.text "effects", .ofFloat settings.timing.effects),
        (.text "waits", .ofFloat settings.timing.waits),
        (.text "multipliers", (Schema.table .real).write settings.timing.multipliers),
        (.text "mode", .text settings.timing.mode),
        (.text "buckets", (Schema.table Bucket.schema).write settings.timing.buckets)] true),
      (.text "strict_bindings", .flag settings.strictBindings)] true := rfl

/--
The mode is no number, so there is a document for the changed settings if there is one for the
others: that one with another mode in it.
-/
theorem fits_inMode {settings : Settings} {room : Nat} (h : schema.Fits room settings)
    (mode : String) : schema.Fits room (settings.inMode mode) := by
  refine ⟨h.finite, h.nesting_le, ?_⟩
  have spelled := h.spelled
  rw [write_eq] at spelled ⊢
  simp only [Node.eachNumber_object_iff, List.forall_mem_cons, Node.eachNumber_text] at spelled ⊢
  exact spelled

theorem ofText_of_decode {text : String} {settings : Settings}
    (h : schema.decode text = .ok settings) :
    ofText text = settings.timing.validate >>= fun _ => .ok settings := by
  unfold ofText
  rw [h]
  rfl

end Settings

namespace Script

/--
The settings that a script asks for, which need not make sense.
-/
inductive Configures (s : Script) : Settings → Prop where
  | standard (absent : s.settings = none) : s.Configures {}
  | given {text : String} {settings : Settings} (file : s.settings = some (some text))
    (decoded : Settings.schema.decode text = .ok settings) : s.Configures settings

variable {s : Script} {settings : Settings} {mode : String} {edited : String}

theorem Configures.readSettings_eq (h : s.Configures settings) :
    s.readSettings = settings.timing.validate >>= fun _ => .ok settings := by
  unfold readSettings
  cases h with
  | standard absent =>
    rw [absent]
    rfl
  | given file decoded =>
    rw [file]
    exact Settings.ofText_of_decode decoded

theorem Configures.fits (h : s.Configures settings) :
    Settings.schema.Fits Source.limit settings := by
  cases h with
  | standard => exact (Settings.fits_of_timing Timing.fits_default).mono (by decide)
  | given _ decoded => exact Schema.fits_of_decode Settings.isLawful_schema (by decide) decoded

theorem render_mode_eq (h : s.Configures settings) {factor : Float}
    (known : settings.timing.multipliers.get? settings.timing.mode = some factor)
    (decoded : Settings.schema.decode edited = .ok (settings.inMode mode)) :
    ({ s with mode := some mode } : Script).render =
      ({ s with mode := none, settings := some (some edited) } : Script).render := by
  have told : ({ s with mode := some mode } : Script).readSettings =
      settings.timing.validateNumbers >>= fun _ => .ok settings := by
    rw [← Timing.validate_of_get? known, ← h.readSettings_eq]
    rfl
  have changed : ({ s with mode := none, settings := some (some edited) } : Script).readSettings =
      (settings.inMode mode).timing.validate >>= fun _ => .ok (settings.inMode mode) :=
    Settings.ofText_of_decode decoded
  have numbers : (settings.inMode mode).timing.validateNumbers = settings.timing.validateNumbers :=
    rfl
  unfold render
  rw [told, changed, Timing.validate_eq (settings.inMode mode).timing, numbers]
  cases checked : settings.timing.validateNumbers with
  | error => rfl
  | ok =>
    have timed : ({ s with mode := some mode } : Script).timing settings =
        discard ((settings.inMode mode).timing.multiplier mode) >>= fun _ =>
          .ok (settings.inMode mode).timing := by
      change ((settings.inMode mode).timing.validate >>= fun _ => _) = _
      rw [Timing.validate_eq (settings.inMode mode).timing, numbers, checked]
      rfl
    change (({ s with mode := some mode } : Script).timing settings >>= _) = _
    rw [timed]
    have asked : (settings.inMode mode).timing.mode = mode := rfl
    rw [asked]
    cases (settings.inMode mode).timing.multiplier mode with
    | error => rfl
    | ok => rfl

/--
A script that is told the mode to play in comes to the same as one without, the settings of which
differ in the mode alone: the same error, or the same record, context, stage and files. There is a
document for such settings, and it does not matter which one is taken.
-/
theorem outcome_mode_eq (s : Script) (settings : Settings) (configured : s.Configures settings)
    (known : (settings.timing.multipliers.get? settings.timing.mode).isSome) (mode : String) :
    let told : Script := { s with mode := some mode }
    let changed (edited : String) : Script :=
      { s with mode := none, settings := some (some edited) }
    (∃ edited, Settings.schema.decode edited = .ok (settings.inMode mode)) ∧
    ∀ edited, Settings.schema.decode edited = .ok (settings.inMode mode) →
      told.render = (changed edited).render ∧
      ∀ exports, told.outcome exports = (changed edited).outcome exports := by
  intro told changed
  obtain ⟨factor, known⟩ := Option.isSome_iff_exists.mp known
  have fits := Settings.fits_inMode configured.fits mode
  refine ⟨fits.exists_decode Settings.isLawful_schema, ?_⟩
  intro edited decoded
  have same : told.render = (changed edited).render := render_mode_eq configured known decoded
  refine ⟨same, ?_⟩
  intro exports
  unfold outcome
  rw [same]

/--
An unknown mode is missed where it is asked for, be it on the command line or in the settings; but
not before a base that is no positive number.
-/
theorem outcome_mode_of_unknown :
    let flawed : Settings := { timing := { ui := 0 } }
    let script (settings : Option File) (mode : Option String) : Script :=
      { scene := none, settings, mode }
    let base : Error := .config (.notPositive "ui" 0)
    let unknown : Error := .config (.unknownMode "slow" ["draft", "fast", "normal"])
    (∃ text edited, Settings.schema.decode text = .ok flawed ∧
      Settings.schema.decode edited = .ok (flawed.inMode "slow") ∧
      (script (some (some text)) (some "slow")).outcome {} = .ofError base ∧
      (script (some (some edited)) none).outcome {} = .ofError base) ∧
    ∃ edited, Settings.schema.decode edited = .ok (({} : Settings).inMode "slow") ∧
      (script none (some "slow")).outcome {} = .ofError unknown ∧
      (script (some (some edited)) none).outcome {} = .ofError unknown := by
  intro flawed script base unknown
  constructor
  · have timing : Timing.schema.Fits Timing.schema.height { ui := 0 } :=
      Timing.fits_of_ui (Schema.fits_real_of_reread_eq rfl (by decide))
    have fits : Settings.schema.Fits Source.limit flawed :=
      (Settings.fits_of_timing timing).mono (by decide)
    obtain ⟨text, decoded⟩ := fits.exists_decode Settings.isLawful_schema
    obtain ⟨⟨edited, changed⟩, same⟩ :=
      outcome_mode_eq (script (some (some text)) none) flawed (.given rfl decoded) rfl "slow"
    have told : (script (some (some text)) (some "slow")).outcome {} = .ofError base := by
      have read : (script (some (some text)) (some "slow")).readSettings = .error base := by
        apply (Settings.ofText_of_decode decoded).trans
        dsimp only [flawed, base]
        rfl
      unfold outcome render
      rw [read]
      rfl
    exact ⟨text, edited, decoded, changed, told, ((same edited changed).2 {}).symm.trans told⟩
  · obtain ⟨⟨edited, changed⟩, same⟩ :=
      outcome_mode_eq (script none none) {} (.standard rfl) rfl "slow"
    have told : (script none (some "slow")).outcome {} = .ofError unknown := rfl
    exact ⟨edited, changed, told, ((same edited changed).2 {}).symm.trans told⟩

end Script

end Stagecraft
