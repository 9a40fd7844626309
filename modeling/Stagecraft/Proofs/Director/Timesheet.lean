import Stagecraft.Proofs.Director.Durations
import Stagecraft.Proofs.Director.Record
import Stagecraft.Proofs.Stage.Clock
import Stagecraft.Proofs.Tracker.Json

/-!
This module contains the times that a run of the built-in actions writes down. The time that a beat
is planned to take makes sense unless it is one of the times of the tempo that are too large. The
time that it took is a difference of two readings of the clock, and makes sense as long as the clock
is finite.
-/

namespace Stagecraft

open Double

/--
The differences between the readings of a clock that shows `now`, in order. They are durations until
the clock becomes infinite; the step to infinity is infinite, and what follows is undefined.
-/
inductive Spans : List Float → Float → Prop where
  | running {spans : List Float} {now : Float} (sane : ∀ span ∈ spans, IsDuration span)
    (finite : now.isFinite = true) : Spans spans now
  | stuck {before after : List Float} {last now : Float} (sane : ∀ span ∈ before, IsDuration span)
    (endless : last.isInf = true ∧ 0 < last) (undefined : ∀ span ∈ after, span.isNaN = true)
    (infinite : now.isFinite = false) : Spans (before ++ last :: after) now

theorem IsDuration.of_hasSize {x : Float} {r : ℚ} (h : HasSize x .positive r) : IsDuration x :=
  ⟨h.isFinite, h.zero_le⟩

namespace Spans

variable {spans : List Float} {x y : Float} {a b : WithTop ℚ}

theorem append (h : Spans spans x) (hx : Shows x a) (hy : Shows y b) (le : a ≤ b) :
    Spans (spans ++ [y - x]) y := by
  cases h with
  | running sane finite =>
    cases later : y.isFinite with
    | true =>
      obtain ⟨q, rfl⟩ := WithTop.ne_top_iff_exists.mp (hy.isFinite_iff.mp later)
      obtain ⟨r, size⟩ := hx.sub hy le
      apply running _ later
      exact List.forall_mem_append.mpr ⟨sane, List.forall_mem_singleton.mpr (.of_hasSize size)⟩
    | false =>
      obtain ⟨p, rfl⟩ := WithTop.ne_top_iff_exists.mp (hx.isFinite_iff.mp finite)
      rw [hy.isFinite_eq_false_iff.mp later] at hy
      have endless := hx.infinite_sub hy
      apply stuck sane ⟨isInf_of_infinity endless, zero_lt_of_infinity endless⟩ _ later
      simp
  | stuck sane endless undefined infinite =>
    rw [hx.isFinite_eq_false_iff] at infinite
    subst infinite
    rw [top_le_iff] at le
    subst le
    rw [List.append_assoc, List.cons_append]
    apply stuck sane endless _ (hy.isFinite_eq_false_iff.mpr rfl)
    exact List.forall_mem_append.mpr
      ⟨undefined, List.forall_mem_singleton.mpr (hx.isNaN_sub hy)⟩

theorem isFinite_of_forall (h : Spans spans x) (sane : ∀ span ∈ spans, IsDuration span) :
    x.isFinite = true := by
  cases h with
  | running _ finite => exact finite
  | stuck _ endless =>
    have last := sane _ (List.mem_append_right _ List.mem_cons_self)
    rw [isInf_of_isFinite last.finite] at endless
    cases endless.1

/--
The differences that are finite are durations.
-/
theorem isDuration (h : Spans spans x) {span : Float} (mem : span ∈ spans)
    (finite : span.isFinite = true) : IsDuration span := by
  cases h with
  | running sane => exact sane span mem
  | stuck sane endless undefined =>
    cases List.mem_append.mp mem with
    | inl before => exact sane span before
    | inr mem =>
      cases List.mem_cons.mp mem with
      | inl last =>
        rw [← last, isInf_of_isFinite finite] at endless
        cases endless.1
      | inr after =>
        have undefined := undefined span after
        rw [isNaN_of_isFinite finite] at undefined
        cases undefined

theorem forall_isDuration (h : Spans spans x) (finite : x.isFinite = true) :
    ∀ span ∈ spans, IsDuration span := by
  cases h with
  | running sane => exact sane
  | stuck _ _ _ infinite =>
    rw [finite] at infinite
    cases infinite

end Spans

theorem Tempo.isDuration_or_infinite (t : Tempo) (h : t.IsPositive) {beat : Beat}
    (valid : beat.invalidDuration? = none) :
    IsDuration (beat.seconds t) ∨
      beat.seconds t ∈ t.times ∧ (beat.seconds t).isFinite = false ∧ 0 ≤ beat.seconds t := by
  have allowed : t.Allows [] (beat.seconds t) := allows_seconds h valid
  cases allowed with
  | duration sane => exact .inl sane
  | overflow mem infinite positive => exact .inr ⟨mem, infinite, positive⟩
  | pause _ mem => cases mem

namespace Progress

/--
What the rows tell of the clock, which goes on from one row to the next.
-/
structure Timed (s : Progress StockWidget Rehearsal) : Prop where
  shows : ∃ a, Shows s.performance.stage.clock.seconds a
  spans : Spans (s.rows.map (·.actual)) s.performance.stage.clock.seconds

variable {s : Progress StockWidget Rehearsal}

theorem Timed.perform (h : s.Timed) (beat : Beat) (cue : Cue StockWidget) :
    (s.perform beat cue).Timed := by
  obtain ⟨⟨a, shows⟩, spans⟩ := h
  unfold Progress.perform
  dsimp only
  rw [Cue.perform_eq]
  obtain ⟨b, le, later⟩ := Rehearsal.exists_shows_foldl_perform shows
    (cue.ops (beat.seconds s.performance.context.tempo))
  refine ⟨⟨b, later⟩, ?_⟩
  dsimp only
  rw [List.map_append]
  exact spans.append shows later le

theorem Timed.foldl_play (h : s.Timed) (beats : List Beat) :
    (beats.foldl (Progress.play .builtins) s).Timed := by
  apply foldl_play_induction h
  · intro t error timed
    exact ⟨timed.shows, timed.spans⟩
  · intro t beat cue _ _ timed
    exact timed.perform beat cue

theorem timed_start (context : Context StockWidget) :
    ({ performance := { context, stage := ({} : Rehearsal) } } :
      Progress StockWidget Rehearsal).Timed := by
  refine ⟨⟨_, Clock.shows_zero⟩, .running (by simp) ?_⟩
  exact Clock.shows_zero.isFinite_iff.mpr WithTop.coe_ne_top

/--
The rows of a run have the times of beats, each of which was looked at before it began.
-/
theorem isDuration_or_infinite_of_mem_rows {p : Performance StockWidget Rehearsal}
    (positive : p.context.tempo.IsPositive) {beats : List Beat} {row : TimingRecord}
    (mem : row ∈ (beats.foldl (play .builtins) { performance := p }).rows) :
    IsDuration row.planned ∨
      row.planned ∈ p.context.tempo.times ∧ row.planned.isFinite = false ∧ 0 ≤ row.planned := by
  obtain ⟨finished, others, _, rows, valid, _⟩ :=
    exists_planned beats (s := { performance := p }) rfl
  have listed := List.mem_map_of_mem (f := (·.plan)) mem
  rw [rows, List.map_nil, List.nil_append] at listed
  obtain ⟨beat, known, same⟩ := List.mem_map.mp listed
  have planned : row.planned = beat.seconds p.context.tempo := (congrArg (·.2) same).symm
  rw [planned]
  exact p.context.tempo.isDuration_or_infinite positive (valid beat known)

end Progress

namespace TimingRecord

/--
A row whose two times make sense.
-/
structure IsSane (row : TimingRecord) : Prop where
  planned : IsDuration row.planned
  actual : IsDuration row.actual

variable {records : List TimingRecord} {now : Float}

theorem forall_isSane_iff_isFinite
    (planned : ∀ row ∈ records, row.planned.isFinite = true → IsDuration row.planned)
    (spans : Spans (records.map (·.actual)) now) :
    (∀ row ∈ records, row.IsSane) ↔ ∀ row ∈ records, row.IsFinite := by
  constructor
  · intro all row mem
    exact ⟨(all row mem).planned.finite, (all row mem).actual.finite⟩
  · intro all row mem
    exact ⟨planned row mem (all row mem).1,
      spans.isDuration (List.mem_map_of_mem mem) (all row mem).2⟩

/--
The clock at the end decides about all times that were taken.
-/
theorem forall_isSane_iff
    (planned : ∀ row ∈ records, row.planned.isFinite = true → IsDuration row.planned)
    (spans : Spans (records.map (·.actual)) now) :
    (∀ row ∈ records, row.IsSane) ↔
      (∀ row ∈ records, row.planned.isFinite = true) ∧ now.isFinite = true := by
  constructor
  · intro all
    refine ⟨fun row mem => (all row mem).planned.finite, spans.isFinite_of_forall ?_⟩
    exact List.forall_mem_map.mpr fun row mem => (all row mem).actual
  · rintro ⟨ready, running⟩ row mem
    exact ⟨planned row mem (ready row mem),
      spans.forall_isDuration running _ (List.mem_map_of_mem mem)⟩

end TimingRecord

/--
What an engine gives to a run that has nothing else.
-/
theorem Context.ofEngine_alone {ω : Type} (engine : Engine ω) :
    ({ Context.ofEngine engine with adapter := none, scenario := .null } : Context ω) =
      .ofEngine engine := rfl

namespace Director

/--
The times that a run writes down. The planned ones are durations, or times of the tempo that are too
large; the others are the differences between readings of the clock. All of them make sense just if
the planned ones and the clock are finite. Then the written record can be read, and it is read as it
was if the digits of its times are read as those times; else it cannot be read.
-/
theorem run_builtins_records {spec : SceneSpec} {timing : Timing} {engine : Engine StockWidget}
    (built : Engine.build .stock spec timing = .ok engine) (storyboard : Storyboard)
    (adapter : Option Adapter) (scenario : Value) :
    let context := { Context.ofEngine engine with adapter, scenario }
    let outcome := ({ storyboard, registry := .builtins } : Director StockWidget Rehearsal).run
      { context, stage := {} }
    let records := outcome.2.1.tracker.records
    let clock := outcome.2.2.stage.clock.seconds
    let document := (Schema.list TimingRecord.schema).decode outcome.2.1.tracker.json
    (∀ row ∈ records, IsDuration row.planned ∨
      row.planned ∈ engine.tempo.times ∧ row.planned.isFinite = false ∧ 0 ≤ row.planned) ∧
    Spans (records.map (·.actual)) clock ∧
    ((∀ row ∈ records, row.IsSane) ↔
      (∀ row ∈ records, row.planned.isFinite = true) ∧ clock.isFinite = true) ∧
    ((∀ row ∈ records, row.IsSane) → (∃ read, document = .ok read) ∧
      ((Schema.list TimingRecord.schema).ReadsBack records → document = .ok records)) ∧
    (¬ (∀ row ∈ records, row.IsSane) → document = .error TimingRecord.noTime) := by
  intro context outcome records clock document
  let start : Progress StockWidget Rehearsal := { performance := { context, stage := {} } }
  let played := storyboard.beats.foldl (Progress.play .builtins) start
  have ran : outcome = (played.result, _, played.performance) :=
    run_eq_progress .builtins storyboard start.performance
  have rows : records = played.rows := congrArg (·.2.1.tracker.records) ran
  have now : clock = played.performance.stage.clock.seconds :=
    congrArg (·.2.2.stage.clock.seconds) ran
  have positive : engine.tempo.IsPositive :=
    Tempo.isPositive_of_ofTiming (Engine.ofTiming_tempo_build built)
  have planned : ∀ row ∈ records, IsDuration row.planned ∨
      row.planned ∈ engine.tempo.times ∧ row.planned.isFinite = false ∧ 0 ≤ row.planned := by
    rw [rows]
    intro row mem
    exact Progress.isDuration_or_infinite_of_mem_rows (p := start.performance) positive mem
  have finite : ∀ row ∈ records, row.planned.isFinite = true → IsDuration row.planned := by
    intro row mem finite
    cases planned row mem with
    | inl sane => exact sane
    | inr infinite => simp [finite] at infinite
  have spans : Spans (records.map (·.actual)) clock := by
    rw [rows, now]
    exact ((Progress.timed_start context).foldl_play storyboard.beats).spans
  have sane := TimingRecord.forall_isSane_iff_isFinite finite spans
  have decoded : document = _ := outcome.2.1.tracker.decode_json
  refine ⟨planned, spans, TimingRecord.forall_isSane_iff finite spans, ?_, ?_⟩
  · intro all
    rw [if_pos (sane.mp all)] at decoded
    exact ⟨⟨_, decoded⟩, Tracker.decode_json_eq_ok (sane.mp all)⟩
  · intro flawed
    rw [decoded, if_neg fun all => flawed (sane.mpr all)]

theorem run_builtins_records_of_finite :
    let spec : SceneSpec := { name := "maze", algorithm := "bfs" }
    let pause : Beat := { action := "wait", duration := some 2.5 }
    let storyboard : Storyboard := {
      acts := [{
        shots := [{ beats := [{ action := "show_title" }, pause, { action := "outro" }] }] }] }
    ∃ engine, Engine.build .stock spec {} = .ok engine ∧
      let outcome := ({ storyboard, registry := .builtins } : Director StockWidget Rehearsal).run
        { context := .ofEngine engine, stage := {} }
      let records := outcome.2.1.tracker.records
      records.length = 3 ∧ (∀ row ∈ records, row.IsSane) ∧
      (Schema.list TimingRecord.schema).decode outcome.2.1.tracker.json = .ok records := by
  intro spec pause storyboard
  let engine : Engine StockWidget := {
    name := "maze", algorithm := "bfs", widgets := .ofList []
    routing := .ofSpecs spec.eventBindings, tempo := { timing := {}, factor := 1.0 } }
  have built : Engine.build .stock spec {} = .ok engine := rfl
  refine ⟨engine, built, ?_⟩
  rw [← Context.ofEngine_alone]
  obtain ⟨_, _, sane, read, _⟩ := run_builtins_records built storyboard none .null
  have all := sane.mpr ⟨by decide +kernel, by decide +kernel⟩
  refine ⟨by decide +kernel, all, ?_⟩
  apply (read all).2
  rw [Tracker.readsBack_iff]
  · decide +kernel
  · decide +kernel

theorem run_builtins_records_of_overflow :
    let spec : SceneSpec := { name := "maze", algorithm := "bfs" }
    let timing : Timing := {
      ui := .ofBits 0x7FE0000000000000, multipliers := .ofList [("normal", 10.0)] }
    let pause : Beat := { action := "wait", duration := some (.ofBits 0x7FE0000000000000) }
    let storyboard : Storyboard := {
      acts := [{ shots := [{ beats := [pause, pause, pause, { action := "show_title" }] }] }] }
    ∃ engine, Engine.build .stock spec timing = .ok engine ∧
      let outcome := ({ storyboard, registry := .builtins } : Director StockWidget Rehearsal).run
        { context := .ofEngine engine, stage := {} }
      let records := outcome.2.1.tracker.records
      outcome.1 = .ok () ∧
      records.map (fun row => (row.planned.isInf, row.actual.isInf, row.actual.isNaN)) =
        [(false, false, false), (false, true, false), (false, false, true), (true, false, true)] ∧
      (Schema.list TimingRecord.schema).decode outcome.2.1.tracker.json =
        .error TimingRecord.noTime := by
  refine ⟨{
      name := "maze", algorithm := "bfs", widgets := .ofList [], routing := .ofSpecs .empty
      tempo := {
        timing := {
          ui := .ofBits 0x7FE0000000000000, multipliers := .ofList [("normal", 10.0)] }
        factor := 10.0 } }, rfl, eq_ok_of_isOk (by decide +kernel), by decide +kernel, ?_⟩
  rw [Tracker.decode_json, if_neg]
  decide +kernel

end Director

end Stagecraft
