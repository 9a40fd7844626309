import Stagecraft.Engine
import Stagecraft.Event
import Stagecraft.Proofs.Document.Reread
import Stagecraft.Settings
import Stagecraft.Stage.Basic
import Stagecraft.Storyboard
import Stagecraft.Tracker

/-!
This module contains the schemas of all documents that are read and written. Each of them is lawful,
so what was written by it is read as it was, and so is what was read and written again.
-/

namespace Stagecraft

namespace Schema

variable {α ρ σ : Type} {type : String} {fields : Fields ρ σ} {make : ρ → α} {view : α → ρ}

theorem isLawful_record (lawful : fields.IsLawful) (make_view : ∀ a, make (view a) = a)
    (view_make : ∀ values, view (make values) = values) :
    (record type fields make view).IsLawful := by
  refine ⟨lawful, ?_⟩
  intro a values
  constructor
  · rintro rfl
    exact make_view a
  · rintro rfl
    exact view_make values

theorem write_real_ne_null (x : Float) (finite : real.IsFinite x) : real.write x ≠ .null := by
  rw [write, Node.ofFloat_of_isFinite finite]
  intro same
  cases same

theorem write_table_ne_null {item : Schema α} (t : Table α) (_ : (table item).IsFinite t) :
    (table item).write t ≠ .null := by
  intro same
  cases same

theorem fits_real_of_reread_eq {room : Nat} {x : Float} (finite : x.isFinite = true)
    (same : Double.reread x = x) : real.Fits room x :=
  fits_real finite (Number.readsBack_real_iff.mpr same).isSpelled

theorem fits_list_nil (item : Schema α) : (list item).Fits (item.height + 1) [] :=
  fits_list (List.forall_mem_nil _)

theorem fits_table_empty (item : Schema α) : (table item).Fits (item.height + 1) .empty := by
  apply fits_table
  intro name a known
  cases known

end Schema

namespace Variants

variable {α ρ σ : Type} {tag name type : String} {fields : Fields ρ σ} {make : ρ → α}
  {view : α → Option ρ} {rest : Variants α}

theorem isLawful_nil : (nil : Variants α).IsLawful tag := trivial

theorem isLawful_cons (lawful : fields.IsLawful) (untagged : tag ∉ fields.names)
    (fresh : name ∉ rest.names) (view_make : ∀ values, view (make values) = some values)
    (make_view : ∀ a values, view a = some values → make values = a)
    (distinct : ∀ a, rest.Makes a → view a = none) (others : rest.IsLawful tag) :
    (cons name type fields make view rest).IsLawful tag := by
  refine ⟨lawful, others, untagged, fresh, ?_, distinct⟩
  intro a values
  constructor
  · exact make_view a values
  · rintro rfl
    exact view_make values

end Variants

open Fields Schema

namespace Timing

theorem isLawful_bucket : Bucket.schema.IsLawful := by
  constructor
  · intro bucket
    cases bucket with
    | _ => decide
  · intro bucket other
    cases bucket with
    | _ =>
      cases other with
      | _ => decide

theorem fits_multipliers : (table real).Fits (table real).height ({} : Timing).multipliers := by
  apply fits_table
  intro mode factor known
  rw [← Entries.mem_toList_iff] at known
  have entries : ({} : Timing).multipliers.toList =
      [("draft", 0.5), ("fast", 0.25), ("normal", 1.0)] := rfl
  rw [entries] at known
  simp only [List.mem_cons, List.not_mem_nil, or_false, Prod.mk.injEq] at known
  obtain ⟨_, rfl⟩ | ⟨_, rfl⟩ | ⟨_, rfl⟩ := known
  · exact fits_real_of_reread_eq rfl (by decide)
  · exact fits_real_of_reread_eq rfl (by decide)
  · exact fits_real_of_reread_eq rfl (by decide)

theorem fits_default_times :
    real.Fits 0 ({} : Timing).ui ∧ real.Fits 0 ({} : Timing).events ∧
      real.Fits 0 ({} : Timing).effects ∧ real.Fits 0 ({} : Timing).waits :=
  ⟨fits_real_of_reread_eq rfl (by decide), fits_real_of_reread_eq rfl (by decide),
    fits_real_of_reread_eq rfl (by decide), fits_real_of_reread_eq rfl (by decide)⟩

theorem isLawful_schema : schema.IsLawful := by
  obtain ⟨ui, events, effects, waits⟩ := fits_default_times
  apply isLawful_record
  · refine isLawful_defaulted isLawful_real ?_ (by decide) ui
    refine isLawful_defaulted isLawful_real ?_ (by decide) events
    refine isLawful_defaulted isLawful_real ?_ (by decide) effects
    refine isLawful_defaulted isLawful_real ?_ (by decide) waits
    refine isLawful_defaulted (isLawful_table isLawful_real) ?_ (by decide) fits_multipliers
    refine isLawful_defaulted isLawful_text ?_ (by decide) (fits_text _)
    refine isLawful_defaulted (isLawful_table isLawful_bucket) ?_ (by decide) (fits_table_empty _)
    exact isLawful_nil
  · exact fun _ => rfl
  · exact fun _ => rfl

/--
There is a text for the default timing, and for one with another time for the actions of the kind
`ui`.
-/
theorem fits_of_ui {ui : Float} (h : real.Fits 0 ui) : schema.Fits schema.height { ui } := by
  obtain ⟨_, events, effects, waits⟩ := fits_default_times
  apply fits_record
  refine fit_cons (h.mono (Nat.zero_le 1)) (fit_cons (events.mono (Nat.zero_le 1)) ?_)
  refine fit_cons (effects.mono (Nat.zero_le 1)) (fit_cons (waits.mono (Nat.zero_le 1)) ?_)
  refine fit_cons fits_multipliers (fit_cons (fits_text _) ?_)
  exact fit_cons (fits_table_empty _) (fit_nil _)

theorem fits_default : schema.Fits schema.height {} := fits_of_ui fits_default_times.1

end Timing

theorem Settings.isLawful_schema : schema.IsLawful := by
  apply isLawful_record
  · refine isLawful_defaulted Timing.isLawful_schema ?_ (by decide) Timing.fits_default
    refine isLawful_defaulted isLawful_flag ?_ (by decide) (fits_flag _)
    exact isLawful_nil
  · exact fun _ => rfl
  · exact fun _ => rfl

theorem Settings.fits_of_timing {timing : Timing} {room : Nat}
    (h : Timing.schema.Fits room timing) : schema.Fits (room + 1) { timing } :=
  fits_record (fit_cons h (fit_cons (fits_flag _) (fit_nil _)))

theorem Beat.isLawful_schema : schema.IsLawful := by
  apply isLawful_record
  · refine isLawful_required isLawful_text ?_ (by decide)
    refine isLawful_defaulted (isLawful_table isLawful_value) ?_ (by decide) (fits_table_empty _)
    refine isLawful_optional isLawful_real write_real_ne_null ?_ (by decide)
    exact isLawful_nil
  · exact fun _ => rfl
  · exact fun _ => rfl

theorem Shot.isLawful_schema : schema.IsLawful := by
  apply isLawful_record
  · refine isLawful_defaulted (isLawful_list Beat.isLawful_schema) ?_ (by decide) (fits_list_nil _)
    exact isLawful_nil
  · exact fun _ => rfl
  · exact fun _ => rfl

theorem Act.isLawful_schema : schema.IsLawful := by
  apply isLawful_record
  · refine isLawful_defaulted isLawful_text ?_ (by decide) (fits_text _)
    refine isLawful_defaulted (isLawful_list Shot.isLawful_schema) ?_ (by decide) (fits_list_nil _)
    exact isLawful_nil
  · exact fun _ => rfl
  · exact fun _ => rfl

theorem Storyboard.isLawful_schema : schema.IsLawful := by
  apply isLawful_record
  · refine isLawful_defaulted (isLawful_list Act.isLawful_schema) ?_ (by decide) (fits_list_nil _)
    exact isLawful_nil
  · exact fun _ => rfl
  · exact fun _ => rfl

theorem WidgetSpec.isLawful_schema : schema.IsLawful := by
  apply isLawful_record
  · refine isLawful_required isLawful_text ?_ (by decide)
    refine isLawful_defaulted (isLawful_table isLawful_value) ?_ (by decide) (fits_table_empty _)
    exact isLawful_nil
  · exact fun _ => rfl
  · exact fun _ => rfl

theorem BindingSpec.isLawful_schema : schema.IsLawful := by
  refine ⟨?_, ?_, ?_⟩
  · refine isLawful_required isLawful_text ?_ (by decide)
    refine isLawful_defaulted (isLawful_table isLawful_value) ?_ (by decide) (fits_table_empty _)
    exact isLawful_nil
  · intro binding target
    cases binding with
    | bare => simp [eq_comm]
    | detailed => simp
  · intro binding values
    cases binding with
    | bare => simp
    | detailed target params => simp [Prod.ext_iff, eq_comm]

theorem SceneSpec.isLawful_schema : schema.IsLawful := by
  apply isLawful_record
  · refine isLawful_required isLawful_text ?_ (by decide)
    refine isLawful_required isLawful_text ?_ (by decide)
    refine isLawful_defaulted (isLawful_table WidgetSpec.isLawful_schema) ?_ (by decide)
      (fits_table_empty _)
    refine isLawful_defaulted (isLawful_table (isLawful_list BindingSpec.isLawful_schema)) ?_
      (by decide) (fits_table_empty _)
    exact isLawful_nil
  · exact fun _ => rfl
  · exact fun _ => rfl

theorem Event.isLawful_schema : schema.IsLawful := by
  apply isLawful_record
  · refine isLawful_required isLawful_text ?_ (by decide)
    refine isLawful_defaulted (isLawful_table isLawful_value) ?_ (by decide) (fits_table_empty _)
    refine isLawful_defaulted isLawful_index ?_ (by decide) (fits_index _)
    refine isLawful_optional (isLawful_table isLawful_value) write_table_ne_null ?_ (by decide)
    exact isLawful_nil
  · exact fun _ => rfl
  · exact fun _ => rfl

theorem Animation.isLawful_schema : schema.IsLawful := by
  apply isLawful_record
  · refine isLawful_required isLawful_text ?_ (by decide)
    refine isLawful_required isLawful_text ?_ (by decide)
    exact isLawful_nil
  · exact fun _ => rfl
  · exact fun _ => rfl

theorem TimingRecord.isLawful_schema : schema.IsLawful := by
  apply isLawful_record
  · refine isLawful_required isLawful_text ?_ (by decide)
    refine isLawful_required isLawful_real ?_ (by decide)
    refine isLawful_required isLawful_real ?_ (by decide)
    exact isLawful_nil
  · exact fun _ => rfl
  · exact fun _ => rfl

theorem StageOp.isLawful_schema : schema.IsLawful := by
  constructor
  · refine Variants.isLawful_cons (isLawful_required isLawful_text isLawful_nil (by decide))
      (by decide) (by decide) (fun _ => rfl) ?_ ?_ ?_
    · intro op values same
      cases op with
      | add =>
        cases same
        rfl
      | _ => cases same
    · rintro op (⟨_, rfl⟩ | ⟨_, rfl⟩ | ⟨_, rfl⟩ | ⟨⟨⟩⟩)
      · rfl
      · rfl
      · rfl
    refine Variants.isLawful_cons (isLawful_required isLawful_text isLawful_nil (by decide))
      (by decide) (by decide) (fun _ => rfl) ?_ ?_ ?_
    · intro op values same
      cases op with
      | remove =>
        cases same
        rfl
      | _ => cases same
    · rintro op (⟨_, rfl⟩ | ⟨_, rfl⟩ | ⟨⟨⟩⟩)
      · rfl
      · rfl
    have seconds : (Fields.required "run_time" real .nil).IsLawful :=
      isLawful_required isLawful_real isLawful_nil (by decide)
    refine Variants.isLawful_cons
      (isLawful_required (isLawful_list Animation.isLawful_schema) seconds (by decide))
      (by decide) (by decide) (fun _ => rfl) ?_ ?_ ?_
    · intro op values same
      cases op with
      | play =>
        cases same
        rfl
      | _ => cases same
    · rintro op (⟨_, rfl⟩ | ⟨⟨⟩⟩)
      rfl
    refine Variants.isLawful_cons (isLawful_required isLawful_real isLawful_nil (by decide))
      (by decide) (by decide) (fun _ => rfl) ?_ ?_ Variants.isLawful_nil
    · intro op values same
      cases op with
      | wait =>
        cases same
        rfl
      | _ => cases same
    · intro op made
      cases made
  · intro op
    cases op with
    | add object => exact .inl ⟨(object, ()), rfl⟩
    | remove object => exact .inr (.inl ⟨(object, ()), rfl⟩)
    | play animations seconds => exact .inr (.inr (.inl ⟨(animations, seconds, ()), rfl⟩))
    | wait seconds => exact .inr (.inr (.inr (.inl ⟨(seconds, ()), rfl⟩)))

/--
The documents that are read and written, and the parts that they are made of.
-/
inductive IsDocument : {α : Type} → Schema α → Prop where
  | settings : IsDocument Settings.schema
  | timing : IsDocument Timing.schema
  | storyboard : IsDocument Storyboard.schema
  | act : IsDocument Act.schema
  | shot : IsDocument Shot.schema
  | beat : IsDocument Beat.schema
  | scene : IsDocument SceneSpec.schema
  | widget : IsDocument WidgetSpec.schema
  | binding : IsDocument BindingSpec.schema
  | event : IsDocument Event.schema
  | op : IsDocument StageOp.schema
  | animation : IsDocument Animation.schema
  | records : IsDocument (.list TimingRecord.schema)

theorem IsDocument.isLawful {α : Type} {schema : Schema α} (kind : IsDocument schema) :
    schema.IsLawful ∧ schema.height ≤ Source.limit := by
  cases kind with
  | settings => exact ⟨Settings.isLawful_schema, by decide⟩
  | timing => exact ⟨Timing.isLawful_schema, by decide⟩
  | storyboard => exact ⟨Storyboard.isLawful_schema, by decide⟩
  | act => exact ⟨Act.isLawful_schema, by decide⟩
  | shot => exact ⟨Shot.isLawful_schema, by decide⟩
  | beat => exact ⟨Beat.isLawful_schema, by decide⟩
  | scene => exact ⟨SceneSpec.isLawful_schema, by decide⟩
  | widget => exact ⟨WidgetSpec.isLawful_schema, by decide⟩
  | binding => exact ⟨BindingSpec.isLawful_schema, by decide⟩
  | event => exact ⟨Event.isLawful_schema, by decide⟩
  | op => exact ⟨StageOp.isLawful_schema, by decide⟩
  | animation => exact ⟨Animation.isLawful_schema, by decide⟩
  | records => exact ⟨isLawful_list TimingRecord.isLawful_schema, by decide⟩

/--
If the digits of the doubles in a document are read as those doubles, the document is read as it was
written, on one line or on many, if the doubles are finite and the values embedded in it do not nest
deeper than texts are read; no other document is. What was read from a text is among them: written
and read again, it stays the same.
-/
theorem IsDocument.decode_encode_document {α : Type} {schema : Schema α}
    (kind : IsDocument schema) :
    (∀ a, schema.ReadsBack a → ∀ spacing, schema.decode (schema.encode a spacing) = .ok a ↔
      schema.IsFinite a ∧ schema.EmbedsWithin Source.limit a) ∧
    ∀ text a, schema.decode text = .ok a → schema.ReadsBack a →
      ∀ spacing, schema.decode (schema.encode a spacing) = .ok a := by
  obtain ⟨lawful, height⟩ := kind.isLawful
  constructor
  · intro a same
    exact Schema.decode_encode_eq_ok_iff lawful height same
  · intro text a read same
    exact (Schema.fits_of_decode lawful height read).decode_encode lawful same

/--
The other name of a duration and a member that no beat has are gone when a beat is written again. A
binding is read again if its parameters nest as deep as they can, and not if they nest deeper.
-/
theorem IsDocument.decode_encode_of_nested :
    let text := "\x7b\"run_time\":2,\"action\":\"pulse\",\"hue\":[1]\x7d"
    let beat : Beat := { action := "pulse", duration := some (Number.floatOfInt 2) }
    let nested (depth : Nat) : Value := depth.repeat (fun value => .array [value]) .null
    let binding (depth : Nat) : BindingSpec :=
      .detailed "board.onVisit" (.ofList [("path", nested depth)])
    Beat.schema.decode text = .ok beat ∧
    Beat.schema.decode (Beat.schema.encode beat .indented) = .ok beat ∧
    BindingSpec.schema.decode (BindingSpec.schema.encode (binding 125)) = .ok (binding 125) ∧
    BindingSpec.schema.decode (BindingSpec.schema.encode (binding 126)) ≠ .ok (binding 126) := by
  intro text beat nested binding
  have parsed : Node.ofText text =
      (.object [(.text "run_time", .number (.integer 2 (by decide))),
        (.text "action", .text "pulse"),
        (.text "hue", .array [.number (.integer 1 (by decide))] true)] true, false) := by
    dsimp only [text]
    cbv
  have read : Beat.schema.decode text = .ok beat := by
    unfold Schema.decode
    rw [parsed]
    rfl
  have nesting (depth : Nat) : (Node.ofValue (nested depth)).nesting = depth := by
    induction depth with
    | zero => rfl
    | succ depth ih =>
      have same : (Node.ofValue (nested (depth + 1))).nesting =
          max (Node.ofValue (nested depth)).nesting 0 + 1 := rfl
      rw [same, ih, Nat.max_zero]
  have pulse : Beat.schema.ReadsBack beat := by
    have written : Beat.schema.write beat = .object [(.text "action", .text "pulse"),
        (.text "args", .object [] true), (.text "duration", .number (.real 2 rfl))] true := rfl
    have two : (Number.real 2 rfl).ReadsBack := Number.readsBack_real_iff.mpr (by decide)
    rw [Schema.ReadsBack, written]
    simpa using two
  have plain (depth : Nat) : BindingSpec.schema.ReadsBack (binding depth) := by
    have numberless : (Node.ofValue (nested depth)).EachNumber Number.ReadsBack := by
      induction depth with
      | zero => exact Node.eachNumber_null
      | succ depth ih => exact .array (List.forall_mem_singleton.mpr ih)
    have written : BindingSpec.schema.write (binding depth) =
        .object [(.text "target", .text "board.onVisit"),
          (.text "params", .object [(.text "path", .ofValue (nested depth))] true)] true := rfl
    rw [Schema.ReadsBack, written]
    simpa using numberless
  have limit (depth : Nat) :=
    IsDocument.binding.decode_encode_document.1 (binding depth) (plain depth) .compact
  refine ⟨read, IsDocument.beat.decode_encode_document.2 text beat read pulse .indented, ?_, ?_⟩
  · apply (limit 125).mpr
    constructor
    · intro values same
      cases same
      exact ⟨trivial, fun _ _ _ => trivial, trivial⟩
    · intro values same
      cases same
      refine ⟨trivial, ?_, trivial⟩
      intro name value known
      have entry : (name, value) ∈ [("path", nested 125)] := Entries.mem_toList_iff.mpr known
      cases List.mem_singleton.mp entry
      exact (nesting 125).le
  · intro read
    have inside := ((limit 126).mp read).2 _ rfl
    have deep : (Node.ofValue (nested 126)).nesting ≤ 125 := inside.2.1 "path" (nested 126) rfl
    rw [nesting] at deep
    exact absurd deep (by decide)

end Stagecraft
