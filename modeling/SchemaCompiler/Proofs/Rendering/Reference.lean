import Mathlib.Data.String.Basic
import SchemaCompiler.Proofs.Lowering.Account
import SchemaCompiler.Proofs.Order
import SchemaCompiler.Proofs.Rendering.Patterns

/-!
Direct compilation. A raw node has an expression that its keys decide, without a declaration in
between; lowering a schema and rendering the declaration gives each property this expression.
-/
namespace SchemaCompiler

open Text (PatternError fill)

namespace Lowering

variable {h : Heap} {limit : Int} {entries : Entries} {s : Stand} {node : Address} {r : Registry}

/-- The expression of a text with a format. -/
def formatted (r : Registry) (format : String) : Except PatternError String :=
  if format == "" then .ok r.target.primitives.string
  else
    match r.get? format with
    | some b => .ok b.validator
    | none => fill r.target.unknownFormatPattern
      [("expr", r.target.primitives.string), ("format", Literal.inComment format)]

/-- The expression of a node whose type is no container. -/
def scalarExpression (r : Registry) (h : Heap) (node : Address) : Except PatternError String :=
  match typeOf h node with
  | .scalar (.str "string") => formatted r (((h.find? node "format").bind Value.text?).getD "")
  | .scalar (.str "number") => .ok r.target.primitives.number
  | .scalar (.str "integer") => .ok r.target.primitives.integer
  | .scalar (.str "boolean") => .ok r.target.primitives.boolean
  | _ => .ok r.target.primitives.unknown

/-- The expression of a raw node without modifiers, down to `room` levels of items. -/
def base (r : Registry) (h : Heap) : (room : Nat) → Address → Except PatternError String
  | 0, _ => .ok r.target.primitives.unknown
  | room + 1, node =>
    match h.find? node "enum", h.find? node "$ref" with
    | some _, _ => r.target.enumExpression (texts h node "enum")
    | none, some target =>
      match target.pointer? with
      | some pointer => .ok (r.target.symbol (Naming.lastSegment pointer))
      | none => .ok r.target.primitives.unknown
    | none, none =>
      if typeOf h node == .str "object" then .ok r.target.record
      else if typeOf h node == .str "array" then do
        let element ← match h.find? node "items" with
          | some (.map items) => base r h room items
          | _ => .ok r.target.primitives.unknown
        fill r.target.arrayPattern [("element", element)]
      else scalarExpression r h node

/-- The expression of a property with its modifiers, given what its owner requires. -/
def propertyExpression (r : Registry) (h : Heap) (room : Nat) (required : List String)
    (name : String) (node : Address) : Except PatternError String :=
  base r h room node >>= r.target.modified (isNullable h node) (required.contains name)

theorem primitive_string (format : String) : r.primitive "string" format = formatted r format := by
  simp only [Registry.primitive, formatted, Primitives.validator]
  cases format == "" <;> rfl

/-- A name of no scalar type is rendered like an unknown one. -/
theorem validator_of_not_scalar {p : Primitives} {name : String}
    (hn : Shape.scalarNames.contains name = false) : p.validator name = p.unknown := by
  simp only [Shape.scalarNames, List.contains_eq_mem, List.mem_cons, List.not_mem_nil, or_false,
    decide_eq_false_iff_not, not_or] at hn
  simp [Primitives.validator, hn]

theorem validator_of_not_scalarName {type : Value} (hn : type.isScalarName = false) :
    (plainShape h node type).validator r = .ok r.target.primitives.unknown := by
  cases type with
  | scalar c =>
    cases c with
    | str name =>
      rw [Value.isScalarName] at hn
      rw [plainShape, hn, if_neg Bool.false_ne_true, Shape.validator, Registry.primitive_plain (.inr rfl),
        validator_of_not_scalar]
      split
      · decide
      · exact hn
    | _ => rfl
  | _ => rfl

theorem validator_plainShape :
    (plainShape h node (typeOf h node)).validator r = scalarExpression r h node := by
  rw [scalarExpression]
  split
  · next ht => rw [ht]; exact primitive_string _
  · next ht => rw [ht]; exact Registry.primitive_plain (.inl (by decide))
  · next ht => rw [ht]; exact Registry.primitive_plain (.inl (by decide))
  · next ht => rw [ht]; exact Registry.primitive_plain (.inl (by decide))
  · next hstring hnumber hinteger hboolean =>
    apply validator_of_not_scalarName
    by_contra hn
    obtain ⟨name, hname, ht⟩ := Value.isScalarName_iff.mp (by simpa using hn)
    simp only [Shape.scalarNames, List.mem_cons, List.not_mem_nil, or_false] at hname
    rcases hname with rfl | rfl | rfl | rfl
    · exact hstring ht
    · exact hnumber ht
    · exact hinteger ht
    · exact hboolean ht

theorem validator_referenceTo (target : Value) : (referenceTo target).validator r =
    match target.pointer? with
    | some pointer => .ok (r.target.symbol (Naming.lastSegment pointer))
    | none => .ok r.target.primitives.unknown := by
  rw [referenceTo]
  cases target.pointer? <;> rfl

/-- What the expression of a node is, by what its keys make of it. -/
theorem base_eq (room : Nat) : base r h (room + 1) node =
    match wayOf h node with
    | .enum => r.target.enumExpression (texts h node "enum")
    | .reference target => (referenceTo target).validator r
    | .object => .ok r.target.record
    | .array => do
      let element ← match h.find? node "items" with
        | some (.map items) => base r h room items
        | _ => .ok r.target.primitives.unknown
      fill r.target.arrayPattern [("element", element)]
    | .plain _ => scalarExpression r h node := by
  rw [base, wayOf]
  cases h.find? node "enum" with
  | some v => rfl
  | none =>
    cases h.find? node "$ref" with
    | some target => simp only [validator_referenceTo]
    | none =>
      by_cases ho : typeOf h node == .str "object"
      · simp only [ho, if_true]
      · by_cases ha : typeOf h node == .str "array"
        · simp only [ho, ha, if_true]
          rfl
        · simp only [ho, ha]
          rfl

/-- The shape of the items of an array, which are unknown when they are no mapping. -/
theorem validator_items (shape : Stand → Shape) :
    (((s.items? h).map shape).getD .unknown).validator r =
      match h.find? s.node "items" with
      | some (.map items) => (shape (s.below items s.site.items)).validator r
      | _ => .ok r.target.primitives.unknown := by
  have hunknown : Shape.unknown.validator r = .ok r.target.primitives.unknown :=
    Registry.primitive_plain (.inr rfl)
  cases hi : h.find? s.node "items" with
  | none => simp [Stand.items?, hi, hunknown]
  | some v => cases v <;> simp [Stand.items?, hi, Value.mapping?, hunknown]

/-- The shape that a visit gives has the expression of its node. -/
theorem validator_lowered (ho : s.outer ≠ []) (hs : (s.visit h limit).error? = none) {room : Nat}
    (hroom : limit.toNat - s.outer.length ≤ room) :
    (s.lowered h limit).validator r = base r h room s.node := by
  induction s using Stand.visit_induction h limit generalizing room with
  | step s ih =>
    obtain ⟨hstop, hbelow⟩ := Stand.error?_visit_eq_none.mp hs
    have hg := (Stand.stop?_eq_none.mp hstop).1
    -- The guard leaves room for one more level.
    obtain ⟨room, rfl⟩ : ∃ k, room = k + 1 := by
      have hl := Stand.length_outer_of_guard? hg
      exact ⟨room - 1, by omega⟩
    obtain ⟨left, hv, _⟩ := Stand.visit_ok hs
    have hshape : s.lowered h limit = s.shapeBy h (Stand.lowered h limit) := by
      rw [Stand.lowered, hv]
    rw [hshape, base_eq, Stand.shapeBy, Stand.way_of_outer_ne_nil ho]
    cases hw : wayOf h s.node with
    | enum =>
      simp only [Stand.enumShape, List.isEmpty_iff, ho, if_false]
      rfl
    | reference target => rfl
    | object => rfl
    | array =>
      have hway : s.way h = .array := (Stand.way_of_outer_ne_nil ho).trans hw
      simp only [Shape.validator, validator_items]
      cases hi : h.find? s.node "items" with
      | none => rfl
      | some v =>
        cases v with
        | map a =>
          have hc := Stand.mem_children_of_items hway hi
          have hroom' : limit.toNat - (s.below a s.site.items).outer.length ≤ room := by
            rw [Stand.outer_of_mem_children hc, List.length_cons]
            omega
          simp only [ih hg _ hc (List.cons_ne_nil _ _) (hbelow _ hc) hroom']
          rfl
        | _ => rfl
    | plain type =>
      obtain ⟨_, rfl, _⟩ := wayOf_eq_plain.mp hw
      exact validator_plainShape

/-- The mappings among some entries by the text of their keys, in document order. -/
def mappings (entries : Entries) : List (String × Address) :=
  entries.filterMap fun (k, v) => k.text?.bind fun name => v.mapping?.map (name, ·)

/-- The mappings among the properties of a node, sorted by name. -/
def sortedProperties (h : Heap) (node : Address) : List (String × Address) :=
  (namedProperties h node).filterMap fun (name, v) => v.mapping?.map (name, ·)

theorem mem_sortedProperties {name : String} {a : Address} :
    (name, a) ∈ sortedProperties h node ↔ (name, .map a) ∈ namedProperties h node := by
  simp only [sortedProperties, List.mem_filterMap, Option.map_eq_some_iff,
    Value.mapping?_eq_some]
  constructor
  · rintro ⟨⟨name, v⟩, hp, a, rfl, heq⟩
    cases heq
    exact hp
  · intro hp
    exact ⟨_, hp, a, rfl, rfl⟩

theorem sortedProperties_perm :
    (sortedProperties h node).Perm (mappings (propertyEntries h node)) := by
  have hp := (List.mergeSort_perm ((propertyEntries h node).filterMap fun (k, v) =>
    k.text?.map (·, v)) fun p q => p.1 ≤ q.1).filterMap fun (name, v) => v.mapping?.map (name, ·)
  rw [List.filterMap_filterMap] at hp
  refine hp.trans (.of_eq (List.filterMap_congr ?_))
  rintro ⟨k, v⟩ _
  cases hk : k.text? <;> simp [hk]

theorem sortedProperties_sorted : (sortedProperties h node).Pairwise (·.1 ≤ ·.1) := by
  have hs : (namedProperties h node).Pairwise (·.1 ≤ ·.1) := pairwise_mergeSort_le Prod.fst _
  rw [sortedProperties, List.pairwise_filterMap]
  refine hs.imp fun {p q} hpq p' hp' q' hq' => ?_
  obtain ⟨a, _, rfl⟩ := Option.map_eq_some_iff.mp hp'
  obtain ⟨b, _, rfl⟩ := Option.map_eq_some_iff.mp hq'
  exact hpq

/-- The fields of an object node, one for each mapping among its properties. -/
theorem fields_eq_map (shape : Stand → Shape) : s.fields h shape =
    (sortedProperties h s.node).map fun p => ⟨p.1, shape (s.below p.2 (s.site.property p.1)),
      description h p.2, isNullable h p.2, (texts h s.node "required").contains p.1⟩ := by
  rw [Stand.fields, Stand.properties, sortedProperties, List.map_filterMap, List.map_filterMap]
  refine List.filterMap_congr ?_
  rintro ⟨name, v⟩ _
  cases v <;> rfl

theorem sortFields_fields (shape : Stand → Shape) :
    sortFields (s.fields h shape) = s.fields h shape := by
  rw [sortFields]
  apply List.mergeSort_of_pairwise
  rw [fields_eq_map, List.pairwise_map]
  exact sortedProperties_sorted.imp fun hpq => by simpa using hpq

/-- What the views of an object schema are: one for each mapping among its properties, sorted by
name, with the expression that compiling the property directly gives. -/
def Compiled (r : Registry) (h : Heap) (limit : Int) (node : Address) (views : List FieldView) :
    Prop :=
  ∃ props : List (String × Address), props.Perm (mappings (propertyEntries h node)) ∧
    props.Pairwise (·.1 ≤ ·.1) ∧
    List.Forall₂ (fun p view => view.name = p.1 ∧ ∀ room, limit.toNat ≤ room →
      propertyExpression r h room (texts h node "required") p.1 p.2 = .ok view.expression)
      props views

/-- A schema that is no enum is rendered with the fields that compiling it directly gives. -/
theorem compiled_of_visit {name : String} {d : Declaration} (ht : r.target.IsPlain)
    (he : h.find? node "enum" = none)
    (ho : ((Stand.ofSchema name node).visit h limit).outcome = .ok (.object none (some d))) :
    ∃ v, Rendered.ofDeclaration r d = .ok v ∧ Compiled r h limit node v.fields := by
  have hs : ((Stand.ofSchema name node).visit h limit).error? = none :=
    Traced.error?_eq_none.mpr ⟨_, ho⟩
  have hway : (Stand.ofSchema name node).way h = .object := Stand.way_ofSchema he
  obtain ⟨left, hv, _⟩ := Stand.visit_ok hs
  rw [hv, Stand.shapeBy, hway] at ho
  cases ho
  obtain ⟨v, hrender, hviews⟩ := exists_rendered ht (Declaration.object name (description h node)
    ((Stand.ofSchema name node).fields h (Stand.lowered h limit)) (texts h node "required"))
  refine ⟨v, hrender, sortedProperties h node, sortedProperties_perm, sortedProperties_sorted, ?_⟩
  -- The fields are made in the order of the names, so sorting them again changes nothing.
  have hfields := (sortFields_fields (Stand.lowered h limit)).trans (fields_eq_map (h := h)
    (s := Stand.ofSchema name node) (Stand.lowered h limit))
  rw [Declaration.object, Declaration.ordered] at hviews
  simp only [hfields, List.forall₂_map_left_iff] at hviews
  refine ((List.forall₂_and_left _ _).mpr ⟨fun p hp => hp, hviews⟩).imp ?_
  rintro ⟨name', a⟩ view ⟨hp, hname, hexpression⟩
  refine ⟨hname, fun room hroom => ?_⟩
  have hc := Stand.mem_children_of_property hway (mem_sortedProperties.mp hp)
  have hlowered := validator_lowered (r := r) (List.cons_ne_nil _ _)
    ((Stand.error?_visit_eq_none.mp hs).2 _ hc) (Nat.le_trans (Nat.sub_le _ _) hroom)
  rw [← hexpression, Field.validator_eq, propertyExpression]
  exact congrArg (· >>= _) hlowered.symm

theorem filterMap_schemaStand? :
    entries.filterMap schemaStand? = (mappings entries).map fun p => Stand.ofSchema p.1 p.2 := by
  rw [mappings, List.map_filterMap]
  refine List.filterMap_congr ?_
  rintro ⟨k, v⟩ _
  simp only [schemaStand?, Option.map_bind, Function.comp_def, Option.map_map]

/-- There is a declaration for each schema, and it is what the visit of the schema gives. -/
theorem visits_of_schemas {ds : List Declaration}
    (hok : (schemas h limit entries).outcome = .ok ds) : List.Forall₂ (fun schema d =>
      ((Stand.ofSchema schema.1 schema.2).visit h limit).outcome = .ok (.object none (some d)))
      (mappings entries) ds := by
  have hmap := map_declarations hok
  rw [filterMap_schemaStand?, List.map_map, ← List.forall₂_eq_eq_eq, List.forall₂_map_left_iff,
    List.forall₂_map_right_iff] at hmap
  exact hmap.flip.imp fun _ _ heq => heq.symm

/-- For every target that comes with the library, lowering and rendering a schema that is no enum
gives each mapping among its properties the expression that compiling it directly gives. -/
theorem fields_compiled {ds : List Declaration} (ht : r.target ∈ Target.all)
    (hok : (schemas h limit entries).outcome = .ok ds) :
    List.Forall₂ (fun schema d => d.name = schema.1 ∧ (h.find? schema.2 "enum" = none →
      ∃ v, Rendered.ofDeclaration r d = .ok v ∧ Compiled r h limit schema.2 v.fields))
      (mappings entries) ds := by
  refine (visits_of_schemas hok).imp fun schema d ho => ⟨name_of_visit ho, fun he => ?_⟩
  exact compiled_of_visit (Target.isPlain_of_mem_all ht) he ho

/-- A schema with a nullable list of texts that is required. -/
def listedHeap : Heap := ⟨#[
  .entries [(.str "type", .str "object"), (.str "required", .list 1), (.str "properties", .map 2)],
  .items [.str "tags"],
  .entries [(.str "tags", .map 3)],
  .entries [(.str "type", .str "array"), (.str "nullable", .scalar (.bool true)),
    (.str "items", .map 4)],
  .entries [(.str "type", .str "string")]]⟩

example : (propertyExpression (.defaults .ioTs) listedHeap 2 ["tags"] "tags" 3).toOption =
    some "t.union([t.array(t.string), t.null])" := by
  decide +kernel

theorem listed_compiled : ∃ ds, (schemas listedHeap 64 [(.str "A", .map 0)]).outcome = .ok ds ∧
    List.Forall₂ (fun schema d => d.name = schema.1 ∧ (listedHeap.find? schema.2 "enum" = none →
      ∃ v, Rendered.ofDeclaration (.defaults .ioTs) d = .ok v ∧
        Compiled (.defaults .ioTs) listedHeap 64 schema.2 v.fields)) [("A", 0)] ds := by
  have hnone : (schemas listedHeap 64 [(.str "A", .map 0)]).error? = none := by decide +kernel
  obtain ⟨ds, ho⟩ := Traced.error?_eq_none.mp hnone
  exact ⟨ds, ho, fields_compiled List.mem_cons_self ho⟩

end Lowering
end SchemaCompiler
