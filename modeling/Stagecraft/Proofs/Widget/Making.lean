import Stagecraft.Engine
import Stagecraft.Table.Lemmas

/-!
This module contains which declarations of widgets can be made, and what they make: a widget of the
declared type that nothing has happened to yet, with the sizes that its parameters give.
-/

namespace Stagecraft

namespace Value

/--
A whole number that is positive.
-/
def IsSize (value : Value) : Prop := ∃ n exact, value = .number (.integer n exact) ∧ 0 < n

theorem toIndex?_eq_some_iff {value : Value} {size : UInt64} :
    value.toIndex? = some size ↔
      ∃ n exact, value = .number (.integer n exact) ∧ 0 ≤ n ∧ size = .ofNat n.toNat := by
  cases value with
  | number number =>
    cases number with
    | integer n exact =>
      unfold toIndex? Number.toIndex?
      dsimp only
      split
      next negative => simp [Int.not_le.mpr negative]
      next nonneg => simp [Int.not_lt.mp nonneg, exact, eq_comm]
    | real => simp [toIndex?, Number.toIndex?]
  | _ => simp [toIndex?]

end Value

theorem zero_lt_ofNat_iff {n : Int} (exact : IsExact n) : 0 < UInt64.ofNat n.toNat ↔ 0 < n := by
  have bound : n.toNat < 2 ^ 64 := by
    unfold IsExact at exact
    omega
  rw [UInt64.lt_iff_toNat_lt, UInt64.toNat_ofNat_of_lt' bound, UInt64.toNat_zero]
  omega

section Params

variable {params : Table Value} {name : String} {default size : UInt64} {error : Error}

/--
What parameters say of a size: it is the default, if they say nothing, and else a positive number.
-/
inductive Extent (params : Table Value) (name : String) (default : UInt64) : UInt64 → Prop where
  | absent (h : params.get? name = none) : Extent params name default default
  | given {n : Int} {exact : IsExact n} (h : params.get? name = some (.number (.integer n exact)))
    (pos : 0 < n) : Extent params name default (.ofNat n.toNat)

theorem positiveParam_eq_ok_iff :
    positiveParam params name default = .ok size ↔ Extent params name default size := by
  unfold positiveParam
  constructor
  · intro h
    split at h
    next missing =>
      cases h
      exact .absent missing
    next value known =>
      split at h
      next index whole =>
        obtain ⟨n, exact, rfl, _, rfl⟩ := Value.toIndex?_eq_some_iff.mp whole
        split at h
        next pos =>
          cases h
          exact .given known ((zero_lt_ofNat_iff exact).mp pos)
        next => cases h
      next => cases h
  · intro h
    cases h with
    | absent missing => rw [missing]
    | @given n exact known pos =>
      have whole := Value.toIndex?_eq_some_iff.mpr ⟨n, exact, rfl, Int.le_of_lt pos, rfl⟩
      rw [known]
      dsimp only
      rw [whole]
      exact if_pos ((zero_lt_ofNat_iff exact).mpr pos)

theorem eq_of_positiveParam_eq_error (h : positiveParam params name default = .error error) :
    error = .config (.notPositiveInteger name) := by
  unfold positiveParam at h
  split at h
  · cases h
  · split at h
    · split at h
      · cases h
      · cases h
        rfl
    · cases h
      rfl

theorem exists_extent_iff :
    (∃ size, Extent params name default size) ↔
      ∀ value, params.get? name = some value → value.IsSize := by
  constructor
  · rintro ⟨size, extent⟩ value known
    cases extent with
    | absent missing =>
      rw [missing] at known
      cases known
    | @given n exact h pos =>
      rw [h] at known
      cases known
      exact ⟨n, exact, rfl, pos⟩
  · intro sizes
    cases known : params.get? name with
    | none => exact ⟨default, .absent known⟩
    | some value =>
      obtain ⟨n, exact, rfl, pos⟩ := sizes value known
      exact ⟨_, .given known pos⟩

end Params

namespace WidgetSpec

variable {name : String} {widget : WidgetSpec} {made : StockWidget}

/--
A declaration that a stock widget can be made from. Stacks and counters take no parameters and
ignore those they are given.
-/
inductive IsBuildable (widget : WidgetSpec) : Prop where
  | grid (kind : widget.kind = "grid")
    (rows : ∀ value, widget.params.get? "rows" = some value → value.IsSize)
    (cols : ∀ value, widget.params.get? "cols" = some value → value.IsSize)
  | queue (kind : widget.kind = "queue")
    (capacity : ∀ value, widget.params.get? "capacity" = some value → value = .null ∨ value.IsSize)
  | stack (kind : widget.kind = "stack")
  | counter (kind : widget.kind = "counter")

/--
The widget `name` as its declaration makes it. It is empty.
-/
inductive Makes (name : String) (widget : WidgetSpec) : StockWidget → Prop where
  | grid {rows cols : UInt64} (kind : widget.kind = "grid")
    (h : Extent widget.params "rows" 5 rows) (h' : Extent widget.params "cols" 5 cols) :
    Makes name widget (.grid { name, rows, cols, cells := [] })
  | queue (kind : widget.kind = "queue")
    (h : widget.params.get? "capacity" = none ∨ widget.params.get? "capacity" = some .null) :
    Makes name widget (.queue { name, items := [], capacity := none })
  | boundedQueue {n : Int} {exact : IsExact n} (kind : widget.kind = "queue")
    (h : widget.params.get? "capacity" = some (.number (.integer n exact))) (pos : 0 < n) :
    Makes name widget (.queue { name, items := [], capacity := some (.ofNat n.toNat) })
  | stack (kind : widget.kind = "stack") : Makes name widget (.stack { name, items := [] })
  | counter (kind : widget.kind = "counter") : Makes name widget (.counter { name, count := 0 })

theorem Makes.kind_eq (h : widget.Makes name made) : Widget.kind made = widget.kind := by
  cases h with
  | grid kind => exact kind.symm
  | queue kind => exact kind.symm
  | boundedQueue kind => exact kind.symm
  | stack kind => exact kind.symm
  | counter kind => exact kind.symm

theorem exists_makes_iff : (∃ made, widget.Makes name made) ↔ widget.IsBuildable := by
  constructor
  · rintro ⟨made, h⟩
    cases h with
    | grid kind rows cols =>
      exact .grid kind (exists_extent_iff.mp ⟨_, rows⟩) (exists_extent_iff.mp ⟨_, cols⟩)
    | queue kind capacity =>
      apply IsBuildable.queue kind
      intro value known
      obtain none | null := capacity
      · rw [none] at known
        cases known
      · rw [null] at known
        cases known
        exact .inl rfl
    | @boundedQueue n exact kind capacity pos =>
      apply IsBuildable.queue kind
      intro value known
      rw [capacity] at known
      cases known
      exact .inr ⟨n, exact, rfl, pos⟩
    | stack kind => exact .stack kind
    | counter kind => exact .counter kind
  · intro h
    cases h with
    | grid kind rows cols =>
      obtain ⟨_, rows⟩ := exists_extent_iff.mpr rows
      obtain ⟨_, cols⟩ := exists_extent_iff.mpr cols
      exact ⟨_, .grid kind rows cols⟩
    | queue kind capacity =>
      cases known : widget.params.get? "capacity" with
      | none => exact ⟨_, .queue kind (.inl known)⟩
      | some value =>
        obtain rfl | ⟨n, exact, rfl, pos⟩ := capacity value known
        · exact ⟨_, .queue kind (.inr known)⟩
        · exact ⟨_, .boundedQueue kind known pos⟩
    | stack kind => exact ⟨_, .stack kind⟩
    | counter kind => exact ⟨_, .counter kind⟩

theorem grid_ofParams_eq_ok_iff (kind : widget.kind = "grid") {grid : Grid} :
    Grid.ofParams name widget.params = .ok grid ↔ widget.Makes name (.grid grid) := by
  constructor
  · intro h
    obtain ⟨rows, first, h⟩ := exists_of_bind_eq_ok h
    obtain ⟨cols, second, h⟩ := exists_of_bind_eq_ok h
    cases h
    exact .grid kind (positiveParam_eq_ok_iff.mp first) (positiveParam_eq_ok_iff.mp second)
  · intro h
    cases h with
    | grid _ rows cols =>
      unfold Grid.ofParams
      rw [positiveParam_eq_ok_iff.mpr rows, positiveParam_eq_ok_iff.mpr cols]
      rfl

theorem queue_ofParams_eq_ok_iff (kind : widget.kind = "queue") {queue : Queue} :
    Queue.ofParams name widget.params = .ok queue ↔ widget.Makes name (.queue queue) := by
  unfold Queue.ofParams
  constructor
  · intro h
    split at h
    next missing =>
      cases h
      exact .queue kind (.inl missing)
    next null =>
      cases h
      exact .queue kind (.inr null)
    next value known =>
      obtain ⟨size, extent, h⟩ := exists_of_bind_eq_ok h
      cases h
      cases positiveParam_eq_ok_iff.mp extent with
      | absent missing => simp [missing] at known
      | given known pos => exact .boundedQueue kind known pos
  · intro h
    cases h with
    | queue _ capacity =>
      obtain none | null := capacity
      · rw [none]
        rfl
      · rw [null]
        rfl
    | boundedQueue _ capacity pos =>
      rw [capacity]
      dsimp only
      rw [positiveParam_eq_ok_iff.mpr (.given capacity pos)]
      rfl

end WidgetSpec

/--
What is said of the widget `name` if its constructor fails. An error that says already which widget
could not be made is passed on.
-/
def Error.ofMaking (name : String) : Error → Error
  | .instantiation inner reason => .instantiation inner reason
  | error => .instantiation name error.message

namespace Factory

section

variable {ω : Type} {factory : Factory ω} {name kind : String} {params : Table Value} {made : ω}
  {error : Error}

theorem build_of_unregistered (unknown : factory.constructors.get? kind = none) :
    factory.build name kind params =
      .error (.instantiation name s!"unknown widget type `{kind}`") := by
  unfold build
  rw [unknown]

theorem build_of_registered {make : Constructor ω}
    (known : factory.constructors.get? kind = some make) :
    factory.build name kind params = (make name params).mapError (.ofMaking name) := by
  unfold build
  rw [known]
  dsimp only
  cases make name params with
  | ok => rfl
  | error error =>
    cases error with
    | _ => rfl

theorem build_eq_ok_iff :
    factory.build name kind params = .ok made ↔
      ∃ make, factory.constructors.get? kind = some make ∧ make name params = .ok made := by
  cases known : factory.constructors.get? kind with
  | none => simp [build_of_unregistered known]
  | some make =>
    rw [build_of_registered known, mapError_eq_ok_iff]
    simp

theorem build_eq_error_iff :
    factory.build name kind params = .error error ↔
      (factory.constructors.get? kind = none ∧
        error = .instantiation name s!"unknown widget type `{kind}`") ∨
      ∃ make cause, factory.constructors.get? kind = some make ∧
        make name params = .error cause ∧ error = .ofMaking name cause := by
  cases known : factory.constructors.get? kind with
  | none => simp [build_of_unregistered known, eq_comm]
  | some make =>
    rw [build_of_registered known, mapError_eq_error_iff]
    simp

end

variable {name kind : String} {params : Table Value} {made : StockWidget} {error : Error}

theorem get?_stock {make : Constructor StockWidget}
    (known : stock.constructors.get? kind = some make) :
    (kind = "grid" ∧ make = fun name params => .grid <$> Grid.ofParams name params) ∨
    (kind = "queue" ∧ make = fun name params => .queue <$> Queue.ofParams name params) ∨
    (kind = "stack" ∧ make = fun name _ => .ok (.stack { name })) ∨
    (kind = "counter" ∧ make = fun name _ => .ok (.counter { name })) := by
  have mem : kind ∈ ["counter", "grid", "queue", "stack"] := Entries.mem_keys_of_get? known
  simp only [List.mem_cons, List.not_mem_nil, or_false] at mem
  obtain rfl | rfl | rfl | rfl := mem
  · exact .inr (.inr (.inr ⟨rfl, (Option.some.inj known).symm⟩))
  · exact .inl ⟨rfl, (Option.some.inj known).symm⟩
  · exact .inr (.inl ⟨rfl, (Option.some.inj known).symm⟩)
  · exact .inr (.inr (.inl ⟨rfl, (Option.some.inj known).symm⟩))

theorem build_stock_eq_ok_iff {widget : WidgetSpec} :
    stock.build name widget.kind widget.params = .ok made ↔ widget.Makes name made := by
  rw [build_eq_ok_iff]
  constructor
  · rintro ⟨make, known, h⟩
    obtain ⟨kind, rfl⟩ | ⟨kind, rfl⟩ | ⟨kind, rfl⟩ | ⟨kind, rfl⟩ := get?_stock known
    · obtain ⟨grid, found, rfl⟩ := map_eq_ok_iff.mp h
      exact (WidgetSpec.grid_ofParams_eq_ok_iff kind).mp found
    · obtain ⟨queue, found, rfl⟩ := map_eq_ok_iff.mp h
      exact (WidgetSpec.queue_ofParams_eq_ok_iff kind).mp found
    · cases h
      exact .stack kind
    · cases h
      exact .counter kind
  · intro h
    have known := h.kind_eq
    cases made with
    | grid grid =>
      rw [← known]
      have made := (WidgetSpec.grid_ofParams_eq_ok_iff known.symm).mpr h
      exact ⟨_, rfl, map_eq_ok_iff.mpr ⟨grid, made, rfl⟩⟩
    | queue queue =>
      rw [← known]
      have made := (WidgetSpec.queue_ofParams_eq_ok_iff known.symm).mpr h
      exact ⟨_, rfl, map_eq_ok_iff.mpr ⟨queue, made, rfl⟩⟩
    | stack stack =>
      rw [← known]
      cases h
      exact ⟨_, rfl, rfl⟩
    | counter counter =>
      rw [← known]
      cases h
      exact ⟨_, rfl, rfl⟩

theorem exists_config_of_make {make : Constructor StockWidget}
    (known : stock.constructors.get? kind = some make) (h : make name params = .error error) :
    ∃ cause, error = .config cause := by
  obtain ⟨_, rfl⟩ | ⟨_, rfl⟩ | ⟨_, rfl⟩ | ⟨_, rfl⟩ := get?_stock known
  · rcases error_or_of_bind_eq_error (map_eq_error_iff.mp h) with h | ⟨_, _, h⟩
    · exact ⟨_, eq_of_positiveParam_eq_error h⟩
    · rcases error_or_of_bind_eq_error h with h | ⟨_, _, h⟩
      · exact ⟨_, eq_of_positiveParam_eq_error h⟩
      · cases h
  · replace h := map_eq_error_iff.mp h
    unfold Queue.ofParams at h
    split at h
    · cases h
    · cases h
    · rcases error_or_of_bind_eq_error h with h | ⟨_, _, h⟩
      · exact ⟨_, eq_of_positiveParam_eq_error h⟩
      · cases h
  · cases h
  · cases h

theorem exists_of_build_stock_eq_error (h : stock.build name kind params = .error error) :
    ∃ reason, error = .instantiation name reason := by
  rcases build_eq_error_iff.mp h with ⟨_, rfl⟩ | ⟨make, cause, known, failed, rfl⟩
  · exact ⟨_, rfl⟩
  · obtain ⟨config, rfl⟩ := exists_config_of_make known failed
    exact ⟨_, rfl⟩

theorem exists_build_stock_eq_error_iff {widget : WidgetSpec} :
    (∃ error, stock.build name widget.kind widget.params = .error error) ↔
      ¬ widget.IsBuildable := by
  have makes : (∃ made, widget.Makes name made) ↔ widget.IsBuildable := WidgetSpec.exists_makes_iff
  rw [← makes]
  simp only [← build_stock_eq_ok_iff]
  cases stock.build name widget.kind widget.params with
  | ok => simp
  | error => simp

end Factory

end Stagecraft
