import Stagecraft.Outcome
import Stagecraft.Proofs.Document.Kinds
import Stagecraft.Proofs.Document.Mapping
import Stagecraft.Proofs.Document.Members
import Stagecraft.Proofs.Routing.Target

/-!
This module contains the ways to write a binding down. A binding without parameters is a target, or
an object with a target; a scene is the same to a run, whichever way is taken for each of them.
-/

namespace Stagecraft

/--
The ways to write a binding down that has a target and no parameters.
-/
inductive BindingSpec.Spells (target : String) : Node → Prop where
  | bare : Spells target (.text target)
  | detailed {pairs : List (String × Node)} (whole : ∀ pair ∈ pairs, pair.2.IsWhole)
    (named : FieldName.nodes "target" pairs = [.text target])
    (params : FieldName.nodes "params" pairs = [] ∨
      FieldName.nodes "params" pairs = [.object [] true]) :
    Spells target (.object (Fields.named pairs) true)

namespace BindingSpec

theorem Spells.exists_read {target : String} {node : Node} (h : Spells target node)
    {source : Source} (room : source.Allows node.nesting) :
    ∃ spec, schema.read source node = .ok spec ∧ spec.target = target ∧ spec.params = .empty := by
  cases h with
  | bare => exact ⟨.bare target, rfl, rfl, rfl⟩
  | @detailed pairs whole named params =>
    refine ⟨.detailed target .empty, ?_, rfl, rfl⟩
    apply Schema.read_either_of_holds (target, .empty, ()) isLawful_schema.1 whole room
    refine ⟨.inr ⟨_, named, rfl⟩, ?_, trivial⟩
    obtain absent | empty := params
    · exact .inl ⟨absent, rfl⟩
    · exact .inr ⟨_, empty, rfl⟩

/--
Two documents for a binding: the same one, or two ways to write one binding down. In a scene a
binding stands in three containers already, which leaves room for as many less inside of it.
-/
inductive Respelled : Node → Node → Prop where
  | same (node : Node) : Respelled node node
  | spelled {target : String} {node other : Node} (h : Spells target node)
    (h' : Spells target other) (room : node.nesting ≤ Source.limit - 3)
    (room' : other.nesting ≤ Source.limit - 3) : Respelled node other

end BindingSpec

/--
Two documents for a scene that are the same but for the way in which bindings are written down.
-/
inductive SceneSpec.Respelled : Node → Node → Prop where
  | object {members others : List (Node × Node)}
    (h : List.Forall₂ (fun member other => member = other ∨
      member.1 = .text "event_bindings" ∧ other.1 = .text "event_bindings" ∧
        Node.Memberwise (Node.Itemwise BindingSpec.Respelled) member.2 other.2) members others)
    (closed : Bool) : Respelled (.object members closed) (.object others closed)
  | array {node other : Node}
    (h : Node.Memberwise (Node.Itemwise BindingSpec.Respelled) node other)
    (name algorithm widgets : Node) (rest : List Node) (closed : Bool) :
    Respelled (.array (name :: algorithm :: widgets :: node :: rest) closed)
      (.array (name :: algorithm :: widgets :: other :: rest) closed)

/--
A scene with its bindings as they are used: all that an engine is built from.
-/
structure RoutedScene where
  name : String
  algorithm : String
  widgets : Table WidgetSpec
  routing : Routing

def SceneSpec.routed (s : SceneSpec) : RoutedScene where
  name := s.name
  algorithm := s.algorithm
  widgets := s.widgets
  routing := .ofSpecs s.eventBindings

theorem Engine.build_of_routed_eq {ω : Type} {s t : SceneSpec} (h : s.routed = t.routed)
    (factory : Factory ω) (timing : Timing) : build factory s timing = build factory t timing := by
  obtain ⟨name, algorithm, widgets, routing⟩ := RoutedScene.mk.inj h
  unfold build
  rw [name, algorithm, widgets, routing]

/--
Bindings are read as they are used.
-/
def Binding.schema : Schema Binding :=
  .either "BindingSpec" (fun target => .parse (.bare target))
    (.required "target" .text <| .defaulted "params" .empty (.table .value) .nil)
    (fun (target, params, ()) => .parse (.detailed target params))
    (fun
      | .method widget name params => .inr (label (.method widget name params), params, ())
      | .malformed raw => .inl raw)

theorem Binding.maps_schema : BindingSpec.schema.Maps parse schema :=
  Schema.maps_either (fun _ => rfl) fun _ => rfl

def RoutedScene.schema : Schema RoutedScene :=
  .record "struct SceneConfig"
    (.required "name" .text <|
      .required "algorithm" .text <|
      .defaulted "widgets" .empty (.table WidgetSpec.schema) <|
      .defaulted "event_bindings" .empty (.table (.list Binding.schema)) .nil)
    (fun (name, algorithm, widgets, routes, ()) =>
      { name, algorithm, widgets, routing := { routes } })
    (fun s => (s.name, s.algorithm, s.widgets, s.routing.routes, ()))

theorem RoutedScene.maps_schema : SceneSpec.schema.Maps SceneSpec.routed schema := by
  have bindings := Schema.maps_table (Schema.maps_list Binding.maps_schema)
  have routes := Fields.maps_defaulted bindings (Fields.maps_refl .nil) "event_bindings" Table.empty
  have widgets := Fields.maps_defaulted (Schema.maps_refl (.table WidgetSpec.schema)) routes
    "widgets" Table.empty
  have algorithm := Fields.maps_required (Schema.maps_refl .text) widgets "algorithm"
  have name := Fields.maps_required (Schema.maps_refl .text) algorithm "name"
  exact Schema.maps_record name fun _ => rfl

theorem Binding.parse_congr {spec other : BindingSpec} (target : spec.target = other.target)
    (params : spec.params = other.params) : parse spec = parse other := by
  unfold parse
  rw [target, params]

theorem BindingSpec.Respelled.read_eq {node other : Node} (h : Respelled node other) :
    Binding.schema.read (.text (Source.limit - 3)) node =
      Binding.schema.read (.text (Source.limit - 3)) other := by
  cases h with
  | same => rfl
  | spelled h h' room room' =>
    have allows : (Source.text (Source.limit - 3)).Allows node.nesting := room
    have allows' : (Source.text (Source.limit - 3)).Allows other.nesting := room'
    obtain ⟨spec, read, target, params⟩ := h.exists_read allows
    obtain ⟨spec', read', target', params'⟩ := h'.exists_read allows'
    rw [Binding.maps_schema, Binding.maps_schema, read, read']
    exact congrArg Except.ok
      (Binding.parse_congr (target.trans target'.symm) (params.trans params'.symm))

theorem RoutedScene.read_bindings_eq {node other : Node}
    (h : Node.Memberwise (Node.Itemwise BindingSpec.Respelled) node other) :
    (Schema.table (.list Binding.schema)).read (.text (Source.limit - 1)) node =
      (Schema.table (.list Binding.schema)).read (.text (Source.limit - 1)) other := by
  apply Schema.read_table_congr h
  rintro _ ⟨⟩ list list' h
  apply Schema.read_list_congr h
  rintro _ ⟨⟩ binding binding' h
  exact h.read_eq

/--
Scenes that differ in nothing but the way in which bindings are written down are read as the same.
-/
theorem SceneSpec.Respelled.read_eq {doc doc' : Node} (h : Respelled doc doc') :
    RoutedScene.schema.read (.text Source.limit) doc =
      RoutedScene.schema.read (.text Source.limit) doc' := by
  cases h with
  | object h closed =>
    apply Schema.read_record_congr
    rintro _ ⟨⟩
    apply h.imp
    rintro member other (rfl | ⟨key, key', h⟩)
    · exact .inl rfl
    · -- No field before has this name, so the member goes to the last one.
      refine .inr ⟨"event_bindings", key, key', ?_⟩
      apply Fields.takesAlike_cons (by decide)
      apply Fields.takesAlike_cons (by decide)
      apply Fields.takesAlike_cons (by decide)
      exact Fields.takesAlike_own (by decide) (RoutedScene.read_bindings_eq h)
  | array h name algorithm widgets rest closed =>
    refine Schema.read_record_items_congr (by rfl) ?_
    rintro _ ⟨⟩
    apply Fields.readItems_cons_congr rfl
    apply Fields.readItems_cons_congr rfl
    apply Fields.readItems_cons_congr rfl
    exact Fields.readItems_cons_congr (RoutedScene.read_bindings_eq h) rfl

section Documents

variable {text text' : String} {doc doc' : Node} {trailing : Bool}

theorem SceneSpec.Respelled.map_routed_decode (h : Respelled doc doc')
    (parsed : Node.ofText text = (doc, trailing)) (parsed' : Node.ofText text' = (doc', trailing)) :
    SceneSpec.routed <$> File.decode schema (some text) =
      SceneSpec.routed <$> File.decode schema (some text') := by
  have same := Schema.decode_congr parsed parsed' h.read_eq
  rw [RoutedScene.maps_schema.decode, RoutedScene.maps_schema.decode] at same
  change _ <$> (schema.decode text).mapError Error.document =
    _ <$> (schema.decode text').mapError Error.document
  rw [map_mapError, map_mapError, same]

/--
Whatever is done with the engine of a scene, it is the same.
-/
theorem SceneSpec.Respelled.bind_build (h : Respelled doc doc')
    (parsed : Node.ofText text = (doc, trailing)) (parsed' : Node.ofText text' = (doc', trailing))
    {ω β : Type} (factory : Factory ω) (timing : Timing)
    (use : Except Error (Engine ω) → Except Error β) :
    (File.decode schema (some text) >>= fun s => use (Engine.build factory s timing)) =
      File.decode schema (some text') >>= fun s => use (Engine.build factory s timing) := by
  apply bind_eq_of_map_eq (h.map_routed_decode parsed parsed')
  intro scene scene' same
  rw [Engine.build_of_routed_eq same]

theorem Script.render_of_respelled (h : SceneSpec.Respelled doc doc')
    (parsed : Node.ofText text = (doc, trailing)) (parsed' : Node.ofText text' = (doc', trailing))
    (s : Script) :
    { s with scene := some text }.render = { s with scene := some text' }.render := by
  have engine (settings : Settings) (timing : Timing) :
      { s with scene := some text }.engine settings timing =
        { s with scene := some text' }.engine settings timing :=
    h.bind_build parsed parsed' .stock timing (· >>= _)
  unfold render
  dsimp only [readSettings, Script.timing, readStoryboard, readScenario]
  simp only [engine]

end Documents

namespace Binding

/--
A target names a method if its only point has text on both sides, and else is kept as it is; in
either case it is how the binding is called, and with the parameters it makes the same binding
again. It does not matter whether a target without parameters is written alone or in an object: no
run of a scene depends on it.
-/
theorem parse_spellings :
    (∀ spec widget name params, parse spec = .method widget name params ↔
      Names spec.target widget name ∧ params = spec.params) ∧
    (∀ spec raw, parse spec = .malformed raw ↔
      raw = spec.target ∧ ∀ widget name, ¬Names spec.target widget name) ∧
    (∀ spec, (parse spec).label = spec.target) ∧
    (∀ spec widget name params, parse spec = .method widget name params →
      parse (.detailed (label (.method widget name params)) params) =
        .method widget name params) ∧
    (∀ target, parse (.detailed target .empty) = parse (.bare target)) ∧
    (∀ target node, BindingSpec.Spells target node →
      ∀ source : Source, source.Allows node.nesting →
        parse <$> BindingSpec.schema.read source node = .ok (parse (.bare target))) ∧
    ∀ text text' doc doc' trailing, Node.ofText text = (doc, trailing) →
      Node.ofText text' = (doc', trailing) → SceneSpec.Respelled doc doc' →
      (∀ (ω : Type) (factory : Factory ω) (timing : Timing),
        (File.decode SceneSpec.schema (some text) >>= (Engine.build factory · timing)) =
          File.decode SceneSpec.schema (some text') >>= (Engine.build factory · timing)) ∧
      ∀ (s : Script) (exports : Exports),
        { s with scene := some text }.render = { s with scene := some text' }.render ∧
        { s with scene := some text }.outcome exports =
          { s with scene := some text' }.outcome exports := by
  refine ⟨fun _ _ _ _ => parse_eq_method_iff, fun _ _ => parse_eq_malformed_iff, label_parse, ?_,
    ?_, ?_, ?_⟩
  · intro spec widget name params made
    obtain ⟨names, _⟩ := parse_eq_method_iff.mp made
    rw [parse_eq_method_iff, ← made, label_parse]
    exact ⟨names, rfl⟩
  · exact fun target => parse_congr rfl rfl
  · intro target node spells source room
    obtain ⟨spec, read, target, params⟩ := spells.exists_read room
    rw [read]
    exact congrArg Except.ok (parse_congr target params)
  · intro text text' doc doc' trailing parsed parsed' h
    constructor
    · intro ω factory timing
      exact h.bind_build parsed parsed' factory timing id
    · intro s exports
      have render := Script.render_of_respelled h parsed parsed' s
      unfold Script.outcome
      exact ⟨render, by rw [render]⟩

/--
A target alone and an object that has something else in it besides, and the other way round.
-/
theorem parse_spellings_of_scene :
    let scene (bindings : String) :=
      "\x7b\"name\":\"maze\",\"algorithm\":\"bfs\",\"event_bindings\":\x7b\"visit\":[" ++
        bindings ++ "]\x7d\x7d"
    let text := scene "\"étage.push\",\x7b\"target\":\"a.b.c\",\"params\":\x7b\x7d\x7d"
    let text' := scene "\x7b\"hue\":1,\"target\":\"étage.push\"\x7d,\"a.b.c\""
    ({ scene := some text } : Script).outcome {} = ({ scene := some text' } : Script).outcome {} ∧
    parse (.bare "étage.push") = .method "étage" "push" .empty ∧
    parse (.detailed (label (.method "étage" "push" .empty)) .empty) =
      .method "étage" "push" .empty ∧
    parse (.detailed "a.b.c" .empty) = .malformed "a.b.c" := by
  intro scene text text'
  let doc (bindings : List Node) : Node :=
    .object [(.text "name", .text "maze"), (.text "algorithm", .text "bfs"),
      (.text "event_bindings", .object [(.text "visit", .array bindings true)] true)] true
  let push : List (String × Node) :=
    [("hue", .number (.integer 1 (by decide))), ("target", .text "étage.push")]
  let other : List (String × Node) := [("target", .text "a.b.c"), ("params", .object [] true)]
  have parsed : Node.ofText text =
      (doc [.text "étage.push", .object (Fields.named other) true], false) := by
    dsimp only [text, scene]
    cbv
  have parsed' : Node.ofText text' =
      (doc [.object (Fields.named push) true, .text "a.b.c"], false) := by
    dsimp only [text', scene]
    set_option maxRecDepth 1000 in
    cbv
  have whole (pair : String × Node) (mem : pair ∈ push ++ other) : pair.2.IsWhole := by
    simp [push, other] at mem
    obtain rfl | rfl | rfl | rfl := mem
    · exact .leaf trivial
    · exact .leaf trivial
    · exact .leaf trivial
    · exact .object (List.forall_mem_nil _) (List.forall_mem_nil _)
  have first : BindingSpec.Respelled (.text "étage.push") (.object (Fields.named push) true) := by
    refine .spelled .bare (.detailed ?_ rfl (.inl rfl)) (by decide) (by decide)
    exact fun pair mem => whole pair (List.mem_append_left _ mem)
  have second : BindingSpec.Respelled (.object (Fields.named other) true) (.text "a.b.c") := by
    refine .spelled (.detailed ?_ rfl (.inr rfl)) .bare (by decide) (by decide)
    exact fun pair mem => whole pair (List.mem_append_right _ mem)
  have respelled : SceneSpec.Respelled (doc [.text "étage.push", .object (Fields.named other) true])
      (doc [.object (Fields.named push) true, .text "a.b.c"]) := by
    refine .object (.cons (.inl rfl) (.cons (.inl rfl) (.cons (.inr ⟨rfl, rfl, ?_⟩) .nil))) true
    apply Node.Memberwise.object
    refine .cons ⟨rfl, ?_⟩ .nil
    exact .array (.cons first (.cons second .nil)) true
  have made : parse (.bare "étage.push") = .method "étage" "push" .empty := rfl
  obtain ⟨_, _, _, again, _, _, runs⟩ := parse_spellings
  refine ⟨?_, made, again _ _ _ _ made, rfl⟩
  exact ((runs _ _ _ _ _ parsed parsed' respelled).2 { scene := none } {}).2

end Binding

end Stagecraft
