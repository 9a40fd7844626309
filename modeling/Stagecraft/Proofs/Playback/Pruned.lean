import Mathlib.Data.List.Basic
import Stagecraft.Proofs.Playback.Answer
import Stagecraft.Proofs.Routing.Target

/-!
This module contains playbacks of which some bindings are left out: those that name no method, and
those of widgets that are not in the pool. They have no effect, so what is left of a playback
without them is the same but for the failures that they cost.
-/

namespace Stagecraft

/--
Whether a binding can reach one of the widgets that have the names given.
-/
def Binding.isLinked (names : List String) : Binding → Bool
  | .method widget _ _ => decide (widget ∈ names)
  | .malformed _ => false

/--
A routing without the bindings that reach none of the widgets `names`, told apart by their targets.
-/
structure Routing.Prunes (r : Routing) (names : List String) (kept : String → Bool)
    (pruned : Routing) : Prop where
  linked (kind : String) :
    ∀ binding ∈ (r.bindings? kind).getD [], kept binding.label = binding.isLinked names
  bindings (kind : String) :
    (pruned.bindings? kind).getD [] = ((r.bindings? kind).getD []).filter (kept ·.label)

theorem Attempt.filter_failure? (kept : String → Bool) (a : Attempt) :
    a.failure?.filter (kept ·.binding) =
      if kept a.trial.binding.label = true then a.failure? else none := by
  obtain ⟨t, result⟩ := a
  unfold failure?
  cases result with
  | ok => simp
  | error reason =>
    cases h : kept t.binding.label with
    | _ => simp [Option.filter, h]

namespace Trial

theorem answer_of_not_isLinked {t : Trial} {pool : Table StockWidget}
    (h : t.binding.isLinked pool.keys = false) :
    ∃ reason, t.answer pool = (.error reason, pool) := by
  obtain ⟨event, binding⟩ := t
  unfold answer
  cases binding with
  | malformed raw => exact ⟨_, rfl⟩
  | method widget method params =>
    dsimp only [Binding.isLinked] at h ⊢
    rw [decide_eq_false_iff_not, ← Entries.get?_eq_none_iff] at h
    rw [h]
    exact ⟨_, rfl⟩

theorem answerAll_filter {kept : Trial → Bool} {ts : List Trial} {pool : Table StockWidget}
    (h : ∀ t ∈ ts, kept t = t.binding.isLinked pool.keys) :
    answerAll (ts.filter kept) pool =
      ((answerAll ts pool).1.filter (kept ·.trial), (answerAll ts pool).2) := by
  induction ts generalizing pool with
  | nil => rfl
  | cons t rest ih =>
    rw [List.forall_mem_cons] at h
    obtain ⟨linked, others⟩ := h
    -- No trial changes the names in the pool, so the others are still told apart by them.
    rw [← keys_answer t pool] at others
    have := ih others
    cases keep : kept t with
    | true => simp only [List.filter_cons, keep, answerAll, ↓reduceIte, this]
    | false =>
      rw [keep] at linked
      obtain ⟨reason, answered⟩ := answer_of_not_isLinked linked.symm
      rw [answered] at this
      simp only [List.filter_cons, keep, answerAll, answered, this, Bool.false_eq_true, ↓reduceIte]

theorem exists_result_of_not_isLinked {ts : List Trial} {pool : Table StockWidget} {a : Answer}
    (mem : a ∈ (answerAll ts pool).1) (h : a.trial.binding.isLinked pool.keys = false) :
    ∃ reason, a.result = .error reason := by
  induction ts generalizing pool with
  | nil => cases mem
  | cons t rest ih =>
    cases List.mem_cons.mp mem with
    | inl first =>
      rw [first] at h ⊢
      obtain ⟨reason, answered⟩ := answer_of_not_isLinked h
      rw [answered]
      exact ⟨reason, rfl⟩
    | inr others =>
      apply ih others
      rwa [keys_answer]

theorem trial_mem_of_mem_answerAll {ts : List Trial} {pool : Table StockWidget} {a : Answer}
    (mem : a ∈ (answerAll ts pool).1) : a.trial ∈ ts := by
  induction ts generalizing pool with
  | nil => cases mem
  | cons t rest ih =>
    cases List.mem_cons.mp mem with
    | inl first =>
      rw [first]
      exact List.mem_cons_self
    | inr others => exact List.mem_cons_of_mem t (ih others)

end Trial

namespace Routing.Prunes

variable {r pruned : Routing} {names : List String} {kept : String → Bool}

theorem trials_eq (h : r.Prunes names kept pruned) (events : List Event) :
    pruned.trials events = (r.trials events).filter (kept ·.binding.label) := by
  unfold Routing.trials
  rw [List.filter_flatMap]
  congr 1
  funext event
  rw [h.bindings, List.filter_map]
  rfl

theorem linked_of_mem_trials (h : r.Prunes names kept pruned) {events : List Event} {t : Trial}
    (mem : t ∈ r.trials events) : kept t.binding.label = t.binding.isLinked names := by
  obtain ⟨event, _, made⟩ := List.mem_flatMap.mp mem
  obtain ⟨binding, declared, rfl⟩ := List.mem_map.mp made
  exact h.linked event.kind binding declared

variable {pool : Table StockWidget}

theorem answerAll_trials (h : r.Prunes pool.keys kept pruned) (events : List Event) :
    Trial.answerAll (pruned.trials events) pool =
      ((Trial.answerAll (r.trials events) pool).1.filter (kept ·.trial.binding.label),
        (Trial.answerAll (r.trials events) pool).2) := by
  rw [h.trials_eq]
  exact Trial.answerAll_filter fun t mem => h.linked_of_mem_trials mem

/--
What is left out shows nothing on the stage.
-/
theorem filterMap_op? (h : r.Prunes pool.keys kept pruned) (events : List Event) (tempo : Tempo) :
    (Trial.answerAll (pruned.trials events) pool).1.filterMap (·.op? tempo) =
      (Trial.answerAll (r.trials events) pool).1.filterMap (·.op? tempo) := by
  rw [h.answerAll_trials, List.filterMap_filter]
  apply List.filterMap_congr
  intro a mem
  have linked := h.linked_of_mem_trials (Trial.trial_mem_of_mem_answerAll mem)
  cases keep : kept a.trial.binding.label with
  | true => rfl
  | false =>
    rw [keep] at linked
    obtain ⟨reason, failed⟩ := Trial.exists_result_of_not_isLinked mem linked.symm
    unfold Answer.op?
    rw [failed]
    rfl

theorem filterMap_failure? (h : r.Prunes pool.keys kept pruned) (events : List Event) :
    ((Trial.answerAll (pruned.trials events) pool).1.map (·.attempt)).filterMap (·.failure?) =
      (((Trial.answerAll (r.trials events) pool).1.map (·.attempt)).filterMap (·.failure?)).filter
        (kept ·.binding) := by
  rw [h.answerAll_trials, List.filter_filterMap, List.filterMap_map, List.filterMap_map,
    List.filterMap_filter]
  congr 1
  funext a
  exact (a.attempt.filter_failure? kept).symm

end Routing.Prunes

end Stagecraft
