import Stagecraft.Proofs.Widget.Session
import Stagecraft.Stage.Rehearsal

/-!
This module contains pushes and pops as brackets. Updates whose brackets match leave a stack as it
was, and a stack that starts empty holds what the pushes that no pop matches have put on it.
-/

namespace Stagecraft

namespace Stack

/--
Updates in which each push is matched by a pop after it, and each pop by a push before it. There may
be others anywhere.
-/
inductive Bracketed : List Update → Prop where
  | nil : Bracketed []
  | other {u : Update} {rest : List Update} (push : u.method ≠ "onPush") (pop : u.method ≠ "onPop")
    (h : Bracketed rest) : Bracketed (u :: rest)
  | pair {opening closing : Update} {inner rest : List Update} (push : opening.method = "onPush")
    (pop : closing.method = "onPop") (h : Bracketed inner) (h' : Bracketed rest) :
    Bracketed (opening :: (inner ++ closing :: rest))

/--
Whether some updates match a push before them: a pop follows on updates that are bracketed.
-/
def IsMatched (later : List Update) : Prop :=
  ∃ inner closing rest, later = inner ++ closing :: rest ∧ Bracketed inner ∧
    closing.method = "onPop"

/--
The number of pops that no push among the updates matches.
-/
def spares : List Update → Nat
  | [] => 0
  | u :: later =>
    if u.method = "onPush" then spares later - 1
    else if u.method = "onPop" then spares later + 1
    else spares later

theorem spares_bracketed_append {inner : List Update} (h : Bracketed inner) (rest : List Update) :
    spares (inner ++ rest) = spares rest := by
  induction h generalizing rest with
  | nil => rfl
  | other push pop _ ih => simp [spares, push, pop, ih]
  | pair push pop _ _ ih ih' =>
    rw [List.cons_append, List.append_assoc, List.cons_append, spares, if_pos push, ih]
    simp [spares, pop, ih']

theorem exists_of_zero_lt_spares {later : List Update} (h : 0 < spares later) :
    ∃ inner closing rest, later = inner ++ closing :: rest ∧ Bracketed inner ∧
      closing.method = "onPop" ∧ spares later = spares rest + 1 := by
  match later with
  | [] => simp [spares] at h
  | u :: later =>
    rw [spares] at h ⊢
    split at h
    next push =>
      -- The push takes one of the pops, so there are two of them: the second one is spare.
      have one : 0 < spares later := by omega
      obtain ⟨inner, closing, middle, rfl, bracketed, pop, count⟩ := exists_of_zero_lt_spares one
      have another : 0 < spares middle := by omega
      obtain ⟨others, last, rest, rfl, bracketed', pop', count'⟩ :=
        exists_of_zero_lt_spares another
      refine ⟨u :: (inner ++ closing :: others), last, rest, ?_, ?_, pop', ?_⟩
      · simp
      · exact .pair push pop bracketed bracketed'
      · rw [if_pos push]
        omega
    next push =>
      split at h
      next pop =>
        refine ⟨[], u, later, rfl, .nil, pop, ?_⟩
        simp [pop]
      next pop =>
        obtain ⟨inner, closing, rest, rfl, bracketed, closes, count⟩ := exists_of_zero_lt_spares h
        refine ⟨u :: inner, closing, rest, rfl, .other push pop bracketed, closes, ?_⟩
        simp [push, pop, count]
termination_by later.length

theorem isMatched_iff {later : List Update} : IsMatched later ↔ 0 < spares later := by
  constructor
  · rintro ⟨inner, closing, rest, rfl, bracketed, pop⟩
    rw [spares_bracketed_append bracketed]
    simp [spares, pop]
  · intro h
    obtain ⟨inner, closing, rest, same, bracketed, pop, _⟩ := exists_of_zero_lt_spares h
    exact ⟨inner, closing, rest, same, bracketed, pop⟩

instance (later : List Update) : Decidable (IsMatched later) :=
  decidable_of_iff _ isMatched_iff.symm

/--
The pushes among some updates that no pop matches, in order.
-/
def unmatched : List Update → List Update
  | [] => []
  | u :: later =>
    if u.method = "onPush" ∧ ¬IsMatched later then u :: unmatched later else unmatched later

variable {s after : Stack} {u : Update}

theorem turns_iff : u.Turns s after ↔ s.Piles u.method u.event after := exists_respond_iff

section Session

variable {σ : Type} [Stage σ]

theorem react_push (s : Session Stack σ) (method : u.method = "onPush") :
    (s.react u).widget = { s.widget with items := u.event.element :: s.widget.items } ∧
      (s.react u).result = .ok () :=
  Session.react_of_turns (turns_iff.mpr (.push method))

theorem react_pop (s : Session Stack σ) (method : u.method = "onPop") :
    (s.react u).widget = { s.widget with items := s.widget.items.tail } ∧
      ((s.react u).result = .ok () ↔ s.widget.items ≠ []) := by
  cases held : s.widget.items with
  | nil =>
    have refuses (after : Stack) : ¬u.Turns s.widget after := by
      intro turns
      cases turns_iff.mp turns with
      | push push => simp [method] at push
      | pop _ some => simp [held] at some
    obtain ⟨turns, _⟩ | ⟨_, error, reaction⟩ := s.react_cases u
    · exact absurd turns (refuses _)
    · rw [reaction, List.tail_nil, ← held]
      constructor
      · rfl
      · simp
  | cons item items =>
    obtain ⟨widget, result⟩ := Session.react_of_turns (turns_iff.mpr (.pop method held))
    simp [widget, result]

theorem react_other (s : Session Stack σ) (push : u.method ≠ "onPush") (pop : u.method ≠ "onPop") :
    (s.react u).widget = s.widget := by
  obtain ⟨turns, _⟩ | ⟨_, error, reaction⟩ := s.react_cases u
  · generalize (s.react u).widget = after at turns
    cases turns_iff.mp turns with
    | push method => exact absurd method push
    | pop method => exact absurd method pop
  · rw [reaction]

/--
Updates that are bracketed cancel out: all their pushes and pops are accepted, and the stack is what
it was.
-/
theorem updateAll_of_bracketed {brackets : List Update} (h : Bracketed brackets)
    (s : Session Stack σ) :
    (s.updateAll brackets).widget = s.widget ∧
      ∃ outcomes, (s.updateAll brackets).history = s.history ++ outcomes ∧
        ∀ outcome ∈ outcomes, outcome.1.method = "onPush" ∨ outcome.1.method = "onPop" →
          outcome.2 = .ok () := by
  induction h generalizing s with
  | nil =>
    refine ⟨rfl, [], ?_⟩
    simp [Session.updateAll]
  | @other u rest push pop _ ih =>
    obtain ⟨widget, outcomes, history, accepted⟩ := ih (s.update u)
    refine ⟨widget.trans (react_other s push pop), (u, (s.react u).result) :: outcomes, ?_, ?_⟩
    · apply history.trans
      simp [Session.update]
    · simpa [push, pop] using accepted
  | @pair opening closing inner rest push pop _ _ ih ih' =>
    let opened := s.update opening
    let full := opened.updateAll inner
    let closed := full.update closing
    have all : s.updateAll (opening :: (inner ++ closing :: rest)) = closed.updateAll rest := by
      apply Session.updateAll_append
    obtain ⟨pushed, result⟩ := react_push s push
    obtain ⟨popped, result'⟩ := react_pop full pop
    obtain ⟨same, outcomes, history, accepted⟩ := ih opened
    obtain ⟨same', outcomes', history', accepted'⟩ := ih' closed
    have holds : full.widget = { s.widget with items := opening.event.element :: s.widget.items } :=
      same.trans pushed
    rw [all]
    refine ⟨?_, (opening, .ok ()) :: outcomes ++ (closing, .ok ()) :: outcomes', ?_, ?_⟩
    · apply same'.trans
      apply popped.trans
      rw [holds]
      rfl
    · apply history'.trans
      have closes : closed.history = full.history ++ [(closing, (full.react closing).result)] := rfl
      have opens : opened.history = s.history ++ [(opening, (s.react opening).result)] := rfl
      have result' : (full.react closing).result = .ok () := by
        rw [result', holds]
        simp
      rw [closes, history, opens, result, result']
      simp
    · simp only [List.cons_append, List.mem_cons, List.mem_append]
      rintro outcome (rfl | mem | rfl | mem)
      · simp
      · exact accepted outcome mem
      · simp
      · exact accepted' outcome mem

theorem items_updateAll (s : Session Stack σ) (updates : List Update) :
    (s.updateAll updates).widget.items =
      ((unmatched updates).map (·.event.element)).reverse ++
        s.widget.items.drop (spares updates) := by
  induction updates generalizing s with
  | nil => simp [Session.updateAll, unmatched, spares]
  | cons u later ih =>
    apply (ih (s.update u)).trans
    rw [unmatched, spares]
    by_cases push : u.method = "onPush"
    · have pushed : (s.update u).widget.items = u.event.element :: s.widget.items := by
        rw [Session.update, (react_push s push).1]
      rw [pushed, if_pos push]
      by_cases matched : IsMatched later
      · obtain ⟨count, spare⟩ : ∃ count, spares later = count + 1 :=
          Nat.exists_eq_add_one.mpr (isMatched_iff.mp matched)
        simp [matched, spare]
      · have none : spares later = 0 := by
          rw [isMatched_iff] at matched
          omega
        simp [matched, none, push]
    · by_cases pop : u.method = "onPop"
      · have popped : (s.update u).widget.items = s.widget.items.tail := by
          rw [Session.update, (react_pop s pop).1]
        simp [popped, pop]
      · have kept : (s.update u).widget.items = s.widget.items := by
          rw [Session.update, react_other s push pop]
        simp [kept, push, pop]

/--
Updates that are bracketed are accepted, as far as they are pushes and pops, and leave a stack as it
was, so they can be put in anywhere: whatever is tried later comes out as it did without them. In
general a stack that starts empty holds the items of the pushes that no pop matches, in order, and
it rejects a pop if there are none.
-/
theorem updateAll_eq_unmatched (stage : σ) :
    (∀ (stack : Stack) (brackets : List Update), Bracketed brackets →
      let start : Session Stack σ := { widget := stack, stage }
      let s := start.updateAll brackets
      s.widget = stack ∧
      (∀ outcome ∈ s.history, outcome.1.method = "onPush" ∨ outcome.1.method = "onPop" →
        outcome.2 = .ok ()) ∧
      ∀ earlier later,
        let short := start.updateAll (earlier ++ later)
        let long := start.updateAll (earlier ++ brackets ++ later)
        long.widget = short.widget ∧
        ∃ before between after, before.map (·.1) = earlier ∧ between.map (·.1) = brackets ∧
          after.map (·.1) = later ∧ short.history = before ++ after ∧
          long.history = before ++ between ++ after) ∧
    ∀ (name : String) (updates : List Update),
      let start : Session Stack σ := { widget := { name }, stage }
      let s := start.updateAll updates
      s.widget.items.reverse = (unmatched updates).map (·.event.element) ∧
      ∀ pop : Update, pop.method = "onPop" →
        ((s.react pop).result ≠ .ok () ↔ unmatched updates = []) := by
  constructor
  · intro stack brackets bracketed start s
    obtain ⟨widget, outcomes, history, accepted⟩ := updateAll_of_bracketed bracketed start
    refine ⟨widget, ?_, ?_⟩
    · rw [show s.history = outcomes from history]
      exact accepted
    · intro earlier later
      apply Session.updateAll_insert
      exact (updateAll_of_bracketed bracketed (start.updateAll earlier)).1
  · intro name updates start s
    have items : s.widget.items = ((unmatched updates).map (·.event.element)).reverse := by
      apply (items_updateAll start updates).trans
      simp [start]
    constructor
    · rw [items, List.reverse_reverse]
    · intro pop method
      rw [ne_eq, (react_pop s method).2, items]
      simp

/--
Brackets within brackets around an update that no stack knows, put between a push and two pops; and
updates whose second pop matches nothing, and whose second push nothing matches.
-/
theorem updateAll_eq_unmatched_of_nested :
    let push (node : UInt64) : Update := {
      method := "onPush", seconds := 0
      event := { kind := "push", payload := .ofList [("node", .ofIndex node)] } }
    let pop : Update := { method := "onPop", seconds := 0, event := { kind := "pop" } }
    let peek : Update := { method := "onPeek", seconds := 0, event := { kind := "peek" } }
    let brackets := [push 1, push 2, peek, pop, pop]
    let start : Session Stack Rehearsal := { widget := { name := "calls" }, stage := {} }
    Bracketed brackets ∧
    (start.updateAll brackets).history.map (·.2.isOk) = [true, true, false, true, true] ∧
    (start.updateAll ([push 3] ++ brackets ++ [pop, pop])).widget =
      (start.updateAll ([push 3] ++ [pop, pop])).widget ∧
    (start.updateAll [push 1, pop, pop, push 2, push 3, pop]).widget.items.reverse =
      [.ofIndex 2] := by
  intro push pop peek brackets start
  have bracketed : Bracketed brackets := by
    have inner : Bracketed [peek] := .other (by decide) (by decide) .nil
    have outer : Bracketed [push 2, peek, pop] := .pair rfl rfl inner .nil
    exact .pair rfl rfl outer .nil
  obtain ⟨cancels, leaves⟩ := updateAll_eq_unmatched ({} : Rehearsal)
  obtain ⟨_, _, inserted⟩ := cancels { name := "calls" } brackets bracketed
  exact ⟨bracketed, by decide +kernel, (inserted [push 3] [pop, pop]).1, (leaves "calls" _).1⟩

end Session

end Stack

end Stagecraft
