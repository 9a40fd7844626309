import Stagecraft.Table

/-!
This module contains the theory of tables: what lookups see after a table is written to
(`get?_insert`) or mapped (`get?_map`, `get?_traverse`), that the keys ascend (`pairwise_keys`),
that lookups and the list of entries say the same (`mem_toList_iff`), and that lookups determine a
table (`ext`).
-/

namespace Stagecraft

theorem Follows.trans {bound : Option String} {a b : String} (h : Follows bound a) (lt : a < b) :
    Follows bound b := by
  cases bound with
  | none => trivial
  | some bound => exact String.lt_trans h lt

theorem bind_of_eq_ok {α β ε : Type} {first : Except ε α} {next : α → Except ε β} {x : α}
    (h : first = .ok x) : first >>= next = next x := by
  rw [h]
  rfl

theorem bind_of_eq_error {α β ε : Type} {first : Except ε α} {next : α → Except ε β} {error : ε}
    (h : first = .error error) : first >>= next = .error error := by
  rw [h]
  rfl

theorem exists_of_ne_error {α ε : Type} {result : Except ε α}
    (h : ∀ error, result ≠ .error error) : ∃ a, result = .ok a := by
  cases result with
  | ok a => exact ⟨a, rfl⟩
  | error error => exact absurd rfl (h error)

theorem exists_of_bind_eq_ok {α β ε : Type} {first : Except ε α} {next : α → Except ε β}
    {value : β} (h : first >>= next = .ok value) :
    ∃ x, first = .ok x ∧ next x = .ok value := by
  cases first with
  | ok x => exact ⟨x, rfl, h⟩
  | error => cases h

theorem error_or_of_bind_eq_error {α β ε : Type} {first : Except ε α} {next : α → Except ε β}
    {error : ε} (h : first >>= next = .error error) :
    first = .error error ∨ ∃ x, first = .ok x ∧ next x = .error error := by
  cases first with
  | ok x => exact .inr ⟨x, rfl, h⟩
  | error =>
    cases h
    exact .inl rfl

theorem map_eq_ok_iff {α β ε : Type} {f : α → β} {result : Except ε α} {value : β} :
    f <$> result = .ok value ↔ ∃ x, result = .ok x ∧ f x = value := by
  cases result with
  | ok => simp [Functor.map, Except.map]
  | error => simp [Functor.map, Except.map]

theorem map_eq_error_iff {α β ε : Type} {f : α → β} {result : Except ε α} {error : ε} :
    f <$> result = .error error ↔ result = .error error := by
  cases result with
  | ok => simp [Functor.map, Except.map]
  | error => simp [Functor.map, Except.map]

theorem mapError_eq_ok_iff {α ε δ : Type} {f : ε → δ} {result : Except ε α} {value : α} :
    result.mapError f = .ok value ↔ result = .ok value := by
  cases result with
  | ok found =>
    change Except.ok found = .ok value ↔ _
    simp
  | error cause =>
    change Except.error (f cause) = .ok value ↔ _
    simp

theorem mapError_eq_error_iff {α ε δ : Type} {f : ε → δ} {result : Except ε α} {error : δ} :
    result.mapError f = .error error ↔ ∃ cause, result = .error cause ∧ error = f cause := by
  cases result with
  | ok found =>
    change Except.ok found = .error error ↔ _
    simp
  | error cause =>
    change Except.error (f cause) = .error error ↔ _
    simp [eq_comm]

theorem forM_eq_ok_iff {α ε : Type} {f : α → Except ε PUnit} {xs : List α} :
    xs.forM f = .ok () ↔ ∀ x ∈ xs, f x = .ok () := by
  induction xs with
  | nil => simp [List.forM, pure, Except.pure]
  | cons x rest ih =>
    change (f x >>= fun _ => rest.forM f) = _ ↔ _
    rw [List.forall_mem_cons, ← ih]
    cases f x with
    | ok => simp [bind, Except.bind]
    | error => simp [bind, Except.bind]

theorem forM_eq_error_iff {α ε : Type} {f : α → Except ε PUnit} {xs : List α} {error : ε} :
    xs.forM f = .error error ↔
      ∃ earlier x later, xs = earlier ++ x :: later ∧ (∀ y ∈ earlier, f y = .ok ()) ∧
        f x = .error error := by
  induction xs with
  | nil => simp [List.forM, pure, Except.pure]
  | cons x rest ih =>
    change (f x >>= fun _ => rest.forM f) = _ ↔ _
    constructor
    · intro h
      rcases error_or_of_bind_eq_error h with first | ⟨_, passed, others⟩
      · refine ⟨[], x, rest, rfl, ?_, first⟩
        simp
      · obtain ⟨earlier, y, later, rfl, good, failed⟩ := ih.mp others
        refine ⟨x :: earlier, y, later, rfl, ?_, failed⟩
        rw [List.forall_mem_cons]
        exact ⟨passed, good⟩
    · rintro ⟨earlier, y, later, same, good, failed⟩
      cases earlier with
      | nil =>
        cases same
        exact bind_of_eq_error failed
      | cons first earlier =>
        cases same
        obtain ⟨passed, good⟩ := List.forall_mem_cons.mp good
        apply (bind_of_eq_ok passed).trans
        exact ih.mpr ⟨earlier, y, later, rfl, good, failed⟩

namespace Entries

variable {α β : Type} {bound : Option String}

@[simp] theorem toList_nil : (nil : Entries α bound).toList = [] := rfl

@[simp] theorem toList_cons (key : String) (h : Follows bound key) (value : α)
    (rest : Entries α (some key)) : (cons key h value rest).toList = (key, value) :: rest.toList :=
  rfl

@[simp] theorem get?_nil (name : String) : (nil : Entries α bound).get? name = none := rfl

@[simp] theorem get?_cons (key : String) (h : Follows bound key) (value : α)
    (rest : Entries α (some key)) (name : String) :
    (cons key h value rest).get? name = if key = name then some value else rest.get? name := rfl

theorem follows_of_mem {t : Entries α bound} {pair : String × α} (h : pair ∈ t.toList) :
    Follows bound pair.1 := by
  induction t with
  | nil => simp at h
  | cons key follows value rest ih =>
    rcases List.mem_cons.mp h with rfl | h
    · exact follows
    · exact follows.trans (ih h)

/--
The keys of a table ascend strictly; in particular none occurs twice.
-/
theorem pairwise_keys (t : Entries α bound) : t.keys.Pairwise (· < ·) := by
  induction t with
  | nil => exact List.Pairwise.nil
  | cons key follows value rest ih =>
    refine List.Pairwise.cons (fun name h => ?_) ih
    obtain ⟨pair, mem, rfl⟩ := List.mem_map.mp h
    exact follows_of_mem mem

theorem lt_of_toList_eq {t : Entries α bound}
    {earlier later : List (String × α)} {name : String} {value : α}
    (h : t.toList = earlier ++ (name, value) :: later) :
    (∀ pair ∈ earlier, pair.1 < name) ∧ ∀ pair ∈ later, name < pair.1 := by
  have sorted := t.pairwise_keys
  unfold keys at sorted
  rw [h, List.pairwise_map, List.pairwise_append, List.pairwise_cons] at sorted
  obtain ⟨_, ⟨above, _⟩, below⟩ := sorted
  refine ⟨?_, above⟩
  intro pair mem
  apply below pair mem (name, value)
  simp

theorem mem_toList_iff {t : Entries α bound} {name : String} {value : α} :
    (name, value) ∈ t.toList ↔ t.get? name = some value := by
  induction t with
  | nil => simp
  | cons key follows old rest ih =>
    rw [toList_cons, get?_cons, List.mem_cons]
    by_cases h : key = name
    · subst h
      have : (key, value) ∉ rest.toList := fun h => String.lt_irrefl key (follows_of_mem h)
      simp [this, eq_comm]
    · have : ¬name = key := fun h' => h h'.symm
      simp [h, this, ih]

theorem get?_eq_none_iff {t : Entries α bound} {name : String} :
    t.get? name = none ↔ name ∉ t.keys := by
  rw [Option.eq_none_iff_forall_ne_some]
  constructor
  · intro h mem
    obtain ⟨pair, mem', rfl⟩ := List.mem_map.mp mem
    exact h pair.2 (mem_toList_iff.mp mem')
  · intro h value eq
    exact h (List.mem_map.mpr ⟨(name, value), mem_toList_iff.mpr eq, rfl⟩)

theorem mem_keys_of_get? {t : Entries α bound} {name : String} {value : α}
    (h : t.get? name = some value) : name ∈ t.keys := by
  apply Decidable.byContradiction
  intro missing
  rw [← get?_eq_none_iff, h] at missing
  contradiction

theorem get?_insertAfter (t : Entries α bound) (name : String) (value : α)
    (h : Follows bound name) (other : String) :
    (insertAfter name value h t).get? other =
      if name = other then some value else t.get? other := by
  induction t with
  | nil => rfl
  | cons key follows old rest ih =>
    rw [insertAfter]
    split
    · rfl
    · split
      next eq =>
        subst eq
        simp only [get?_cons]
        split <;> rfl
      next lt ne =>
        rw [get?_cons, get?_cons, ih (lt_of_not_lt_of_ne lt ne)]
        by_cases h₁ : key = other
        · have : ¬name = other := fun h₂ => ne (h₁.trans h₂.symm)
          simp [h₁, this]
        · simp [h₁]

@[simp] theorem get?_map (t : Entries α bound) (f : String → α → β) (name : String) :
    (t.map f).get? name = (t.get? name).map (f name) := by
  induction t with
  | nil => rfl
  | cons key follows value rest ih =>
    simp only [map, get?_cons, ih]
    split
    next eq => subst eq; rfl
    · rfl

@[simp] theorem toList_map (t : Entries α bound) (f : String → α → β) :
    (t.map f).toList = t.toList.map fun pair => (pair.1, f pair.1 pair.2) := by
  induction t with
  | nil => rfl
  | cons key follows value rest ih => simp [map, ih]

theorem keys_map (t : Entries α bound) (f : String → α → β) : (t.map f).keys = t.keys := by
  unfold keys
  rw [toList_map, List.map_map]
  rfl

theorem get?_traverse {ε : Type} {f : String → α → Except ε β} {t : Entries α bound}
    {u : Entries β bound} (h : t.traverse f = .ok u) (name : String) :
    u.get? name = (t.get? name).bind fun value => (f name value).toOption := by
  induction t with
  | nil =>
    cases h
    rfl
  | cons key follows value rest ih =>
    obtain ⟨first, made, h⟩ := exists_of_bind_eq_ok h
    obtain ⟨last, others, h⟩ := exists_of_bind_eq_ok h
    cases h
    rw [get?_cons, get?_cons, ih others]
    by_cases same : key = name
    · subst same
      simp [made, Except.toOption]
    · simp [same]

theorem keys_traverse {ε : Type} {f : String → α → Except ε β} {t : Entries α bound}
    {u : Entries β bound} (h : t.traverse f = .ok u) : u.keys = t.keys := by
  induction t with
  | nil =>
    cases h
    rfl
  | cons key follows value rest ih =>
    obtain ⟨first, _, h⟩ := exists_of_bind_eq_ok h
    obtain ⟨last, others, h⟩ := exists_of_bind_eq_ok h
    cases h
    unfold keys
    rw [toList_cons, toList_cons, List.map_cons, List.map_cons]
    exact congrArg (key :: ·) (ih others)

theorem exists_traverse_eq_ok_iff {ε : Type} {f : String → α → Except ε β} {t : Entries α bound} :
    (∃ u, t.traverse f = .ok u) ↔
      ∀ name value, (name, value) ∈ t.toList → ∃ made, f name value = .ok made := by
  induction t with
  | nil => simp [traverse]
  | cons key follows value rest ih =>
    constructor
    · rintro ⟨u, h⟩
      obtain ⟨first, made, h⟩ := exists_of_bind_eq_ok h
      obtain ⟨last, others, _⟩ := exists_of_bind_eq_ok h
      intro name other mem
      rcases List.mem_cons.mp mem with same | mem
      · cases same
        exact ⟨first, made⟩
      · exact ih.mp ⟨last, others⟩ name other mem
    · intro h
      obtain ⟨first, made⟩ := h key value List.mem_cons_self
      obtain ⟨last, others⟩ := ih.mpr fun name other mem =>
        h name other (List.mem_cons_of_mem _ mem)
      refine ⟨cons key follows first last, ?_⟩
      rw [traverse, made, others]
      rfl

/--
What is wrong with a table is what is wrong with the first of its entries that there is something
wrong with.
-/
theorem exists_of_traverse_eq_error {ε : Type} {f : String → α → Except ε β} {t : Entries α bound}
    {error : ε} (h : t.traverse f = .error error) :
    ∃ name value, (name, value) ∈ t.toList ∧ f name value = .error error ∧
      ∀ other flawed flaw, (other, flawed) ∈ t.toList → f other flawed = .error flaw →
        name ≤ other := by
  induction t with
  | nil => cases h
  | cons key follows value rest ih =>
    cases made : f key value with
    | error first =>
      rw [traverse, made] at h
      cases h
      refine ⟨key, value, List.mem_cons_self, made, ?_⟩
      intro other flawed flaw mem _
      rcases List.mem_cons.mp mem with same | mem
      · cases same
        exact String.le_refl key
      · exact String.not_lt.mp (String.lt_asymm (follows_of_mem mem))
    | ok first =>
      rw [traverse, made] at h
      cases others : rest.traverse f with
      | ok last =>
        rw [others] at h
        cases h
      | error last =>
        rw [others] at h
        cases h
        obtain ⟨name, value, mem, failed, least⟩ := ih others
        refine ⟨name, value, List.mem_cons_of_mem _ mem, failed, ?_⟩
        intro other flawed flaw mem wrong
        rcases List.mem_cons.mp mem with same | mem
        · cases same
          rw [made] at wrong
          cases wrong
        · exact least other flawed flaw mem wrong

/--
A name that no entry after `bound` may have is not found.
-/
theorem get?_eq_none_of_not_follows {t : Entries α bound} {name : String}
    (h : ¬Follows bound name) : t.get? name = none := by
  rw [get?_eq_none_iff]
  intro mem
  obtain ⟨pair, mem', rfl⟩ := List.mem_map.mp mem
  exact h (follows_of_mem mem')

theorem lookup_toList (t : Entries α bound) (name : String) :
    t.toList.lookup name = t.get? name := by
  induction t with
  | nil => rfl
  | cons key follows value rest ih =>
    rw [toList_cons, get?_cons, List.lookup_cons, ih]
    by_cases same : key = name
    · simp [same]
    · have : (name == key) = false := by simpa using Ne.symm same
      simp [same, this]

theorem lookup_reverse_toList (t : Entries α bound) (name : String) :
    t.toList.reverse.lookup name = t.get? name := by
  induction t with
  | nil => rfl
  | cons key follows value rest ih =>
    rw [toList_cons, List.reverse_cons, List.lookup_append, ih, get?_cons, List.lookup_cons,
      List.lookup_nil]
    by_cases same : key = name
    · subst same
      have self : ¬Follows (some key) key := String.lt_irrefl key
      simp [get?_eq_none_of_not_follows self]
    · have : (name == key) = false := by simpa using fun eq => same eq.symm
      simp [same, this]

/--
The parts that the entry under `name` has, among the parts of all entries.
-/
theorem map_filter_flatMap (t : Entries α bound) (parts : α → List β) (name : String) :
    ((t.toList.flatMap fun pair => (parts pair.2).map (pair.1, ·)).filter (·.1 = name)).map (·.2) =
      ((t.get? name).map parts).getD [] := by
  induction t with
  | nil => rfl
  | cons key follows value rest ih =>
    rw [toList_cons, List.flatMap_cons, List.filter_append, List.map_append, ih, get?_cons,
      List.filter_map, List.map_map]
    by_cases same : key = name
    · subst same
      have self : ¬Follows (some key) key := String.lt_irrefl key
      simp [get?_eq_none_of_not_follows self, Function.comp_def]
    · simp [same, Function.comp_def]

/--
The parts of all entries, each with the key of its entry, stand in the order of the keys.
-/
theorem pairwise_flatMap (t : Entries α bound) (parts : α → List β) :
    ((t.toList.flatMap fun pair => (parts pair.2).map (pair.1, ·)).map (·.1)).Pairwise
      (· ≤ ·) := by
  have ascending := t.pairwise_keys
  rw [keys, List.pairwise_map] at ascending
  rw [List.map_flatMap, List.pairwise_flatMap]
  simp only [List.map_map, List.pairwise_map, List.mem_map, Function.comp_apply]
  refine ⟨?_, ascending.imp ?_⟩
  · intro pair _
    rw [List.pairwise_iff_forall_sublist]
    intro _ _ _
    apply String.le_refl
  · rintro pair other lt _ ⟨_, _, rfl⟩ _ ⟨_, _, rfl⟩
    exact String.not_lt.mp (String.lt_asymm lt)

theorem keys_insertAfter (t : Entries α bound) (name : String) (value : α)
    (h : Follows bound name) (mem : name ∈ t.keys) :
    (insertAfter name value h t).keys = t.keys := by
  induction t with
  | nil => simp [keys] at mem
  | cons key follows old rest ih =>
    rw [insertAfter]
    split
    next lt =>
      have ne : ¬key = name := fun eq => String.lt_irrefl name (eq ▸ lt)
      have : name ∉ (cons key follows old rest).keys := by
        rw [← get?_eq_none_iff, get?_cons, if_neg ne]
        exact get?_eq_none_of_not_follows (String.lt_asymm lt)
      exact absurd mem this
    next lt =>
      split
      · rfl
      next ne =>
        have mem : name ∈ rest.keys := by
          rcases List.mem_cons.mp mem with eq | mem
          · exact absurd eq.symm ne
          · exact mem
        exact congrArg (key :: ·) (ih (lt_of_not_lt_of_ne lt ne) mem)

theorem ext {t u : Entries α bound} (h : ∀ name, t.get? name = u.get? name) : t = u := by
  induction t with
  | nil => cases u with
    | nil => rfl
    | cons key => simpa using h key
  | @cons bound key follows value rest ih => cases u with
    | nil => simpa using h key
    | cons key' follows' value' rest' =>
      have below {a b : String} {c : Option String} {v : α} (f : Follows c b)
          (r : Entries α (some b)) (lt : a < b) : (cons b f v r).get? a = none := by
        have ne : ¬b = a := fun eq => String.lt_irrefl a (eq ▸ lt)
        rw [get?_cons, if_neg ne]
        exact get?_eq_none_of_not_follows (String.lt_asymm lt)
      have eq : key = key' := by
        refine String.le_antisymm (fun lt => ?_) (fun lt => ?_)
        · simpa [below follows rest lt] using h key'
        · simpa [below follows' rest' lt] using h key
      subst eq
      have eq : value = value' := by simpa using h key
      subst eq
      have : rest = rest' := ih fun name => by
        by_cases eq : key = name
        · subst eq
          have self : ¬Follows (some key) key := String.lt_irrefl key
          rw [get?_eq_none_of_not_follows self, get?_eq_none_of_not_follows self]
        · simpa [eq] using h name
      rw [this]

end Entries

namespace Table

variable {α β : Type}

@[simp] theorem get?_empty (name : String) : (empty : Table α).get? name = none := rfl

@[simp] theorem get?_insert (t : Table α) (name : String) (value : α) (other : String) :
    (t.insert name value).get? other = if name = other then some value else t.get? other :=
  t.get?_insertAfter name value trivial other

theorem map_insert (t : Table α) (name : String) (value : α) (f : String → α → β) :
    (t.insert name value).map f = insert (t.map f) name (f name value) := by
  apply Entries.ext
  intro other
  rw [Entries.get?_map, get?_insert, get?_insert, Entries.get?_map]
  by_cases h : name = other
  · simp [h]
  · simp [h]

theorem map_foldl_insert (pairs : List (String × α)) (t : Table α) (f : String → α → β) :
    (pairs.foldl (fun t pair => t.insert pair.1 pair.2) t).map f =
      (pairs.map fun pair => (pair.1, f pair.1 pair.2)).foldl
        (fun t pair => insert t pair.1 pair.2) (t.map f) := by
  induction pairs generalizing t with
  | nil => rfl
  | cons pair rest ih => rw [List.foldl_cons, ih, map_insert, List.map_cons, List.foldl_cons]

theorem map_ofList (pairs : List (String × α)) (f : String → α → β) :
    (ofList pairs).map f = ofList (pairs.map fun pair => (pair.1, f pair.1 pair.2)) :=
  map_foldl_insert pairs empty f

theorem get?_foldl_insert (pairs : List (String × α)) (t : Table α) (name : String) :
    (pairs.foldl (fun t pair => t.insert pair.1 pair.2) t).get? name =
      (pairs.reverse.lookup name).or (t.get? name) := by
  induction pairs generalizing t with
  | nil => rfl
  | cons pair rest ih =>
    rw [List.foldl_cons, ih, List.reverse_cons, List.lookup_append, get?_insert, Option.or_assoc]
    congr 1
    obtain ⟨key, value⟩ := pair
    rw [List.lookup_cons, List.lookup_nil]
    by_cases h : key = name
    · simp [h]
    · have : (name == key) = false := by simpa using fun eq => h eq.symm
      simp [h, this]

theorem get?_ofList (pairs : List (String × α)) (name : String) :
    (ofList pairs).get? name = pairs.reverse.lookup name := by
  unfold ofList
  rw [get?_foldl_insert, get?_empty, Option.or_none]

/--
Writing the entries of a table one after the other gives the table.
-/
theorem ofList_toList (t : Table α) : ofList t.toList = t := by
  apply Entries.ext
  intro name
  rw [get?_ofList, Entries.lookup_reverse_toList]

theorem insert_eq_self {t : Table α} {name : String} {value : α} (h : t.get? name = some value) :
    t.insert name value = t := by
  apply Entries.ext
  intro other
  rw [get?_insert]
  split
  next same =>
    rw [← same, h]
  · rfl

theorem insert_insert (t : Table α) (name : String) (value other : α) :
    (t.insert name value).insert name other = t.insert name other := by
  apply Entries.ext
  intro asked
  simp only [get?_insert]
  split
  · rfl
  · rfl

theorem insert_comm (t : Table α) {name other : String} (ne : name ≠ other) (value twin : α) :
    (t.insert name value).insert other twin = (t.insert other twin).insert name value := by
  apply Entries.ext
  intro asked
  simp only [get?_insert]
  by_cases first : name = asked
  · have second : ¬other = asked := fun same => ne (first.trans same.symm)
    rw [if_pos first, if_neg second, if_pos first]
  · rw [if_neg first, if_neg first]

theorem keys_insert (t : Table α) (name : String) (value : α) (mem : name ∈ t.keys) :
    (t.insert name value).keys = t.keys :=
  t.keys_insertAfter name value trivial mem

end Table

end Stagecraft
