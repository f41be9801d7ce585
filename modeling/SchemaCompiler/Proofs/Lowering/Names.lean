import SchemaCompiler.Proofs.Layout.Plan
import SchemaCompiler.Proofs.Lowering.Descent
import SchemaCompiler.Proofs.Rendering.Keys

/-!
Names and keys. Declarations and fields are named by the texts of keys. Keys that are texts are told apart
by these, but a key of another kind can have the text of a second key, as the number 1 has that of "1".
Names are repeated for such keys only, and then a declaration is lost or an object has two fields of one
name.
-/
namespace SchemaCompiler

namespace Lowering

variable {h : Heap} {limit : Int} {entries : Entries} {ds : List Declaration} {s : Stand}
  {node : Address} {o : Declaration} {path : String}

/-- No two mappings have keys whose texts are read as one name. -/
def TextsApart (read : String → String) (entries : Entries) : Prop :=
  ((mappings entries).map fun m => read m.1).Nodup

/-- Keys that are texts and different have different texts. -/
theorem textsApart_of_texts (hkeys : entries.Pairwise fun e e' => e.1.sameKey e'.1 = false)
    (htexts : ∀ e ∈ entries, e.2.mapping?.isSome → ∃ text, e.1 = .str text) :
    TextsApart id entries := by
  rw [TextsApart, List.Nodup, List.pairwise_map, mappings, List.pairwise_filterMap]
  refine hkeys.imp_of_mem ?_
  rintro ⟨k, v⟩ ⟨k', v'⟩ he he' hne m hm m' hm' heq
  obtain ⟨name, hname, hm⟩ := Option.bind_eq_some_iff.mp hm
  obtain ⟨name', hname', hm'⟩ := Option.bind_eq_some_iff.mp hm'
  obtain ⟨a, ha, rfl⟩ := Option.map_eq_some_iff.mp hm
  obtain ⟨a', ha', rfl⟩ := Option.map_eq_some_iff.mp hm'
  obtain ⟨text, rfl⟩ := htexts _ he (Option.isSome_of_eq_some ha)
  obtain ⟨text', rfl⟩ := htexts _ he' (Option.isSome_of_eq_some ha')
  cases hname
  cases hname'
  exact (beq_eq_false_iff_ne.mp hne) heq

/-- What is declared is an enum, or an object whose fields are the mappings among the properties of a
visited node. -/
def Described (h : Heap) (entries : Entries) (o : Declaration) (path : String) : Prop :=
  (o.isEnum = true ∧ o.fields = []) ∨ ∃ x s, standAt? h entries x = some s ∧ s.way h = .object ∧
    path = s.site.path ∧ o.fields.map (·.name) = (sortedProperties h s.node).map (·.1)

/-- The declaration of an object node, given the shapes of the nodes below it. -/
def Stand.objectBy (h : Heap) (shape : Stand → Shape) (s : Stand) : Declaration :=
  .object s.site.name (description h s.node) (s.fields h shape) (texts h s.node "required")

theorem names_of_objectBy (shape : Stand → Shape) :
    (s.objectBy h shape).fields.map (·.name) = (sortedProperties h s.node).map (·.1) := by
  change (sortFields (s.fields h shape)).map (·.name) = _
  rw [sortFields_fields, fields_eq_map, List.map_map]
  rfl

theorem names_of_visit {name : String} {d : Declaration} (he : h.find? node "enum" = none)
    (ho : ((Stand.ofSchema name node).visit h limit).outcome = .ok (.object none (some d))) :
    d.fields.map (·.name) = (sortedProperties h node).map (·.1) := by
  obtain ⟨left, hv, _⟩ := Stand.visit_ok (Traced.error?_eq_none.mpr ⟨_, ho⟩)
  rw [hv, Stand.shapeBy, Stand.way_ofSchema he] at ho
  cases ho
  exact names_of_objectBy _

theorem described_of_lowered {x : List Nat} (hv : (s.visit h limit).error? = none)
    (hat : standAt? h entries x = some s) (ho : (s.lowered h limit).given? = some o) :
    Described h entries o s.site.path := by
  rw [Stand.lowered_eq hv, Stand.shapeBy] at ho
  cases hway : s.way h with
  | enum =>
    rw [hway] at ho
    dsimp only [Stand.enumShape] at ho
    split at ho
    · cases ho
      exact .inl ⟨rfl, rfl⟩
    · cases ho
  | reference target =>
    rw [hway] at ho
    dsimp only [referenceTo] at ho
    split at ho <;> cases ho
  | object =>
    rw [hway] at ho
    cases ho
    exact .inr ⟨x, s, hat, hway, rfl, names_of_objectBy _⟩
  | array =>
    rw [hway] at ho
    cases ho
  | plain type =>
    obtain ⟨name, format, hplain⟩ := exists_primitive_shape h s.node type
    rw [hway] at ho
    dsimp only at ho
    rw [hplain] at ho
    cases ho

/-- Every object in the shape of a node, at any depth, is described. -/
theorem described_of_visit {x : List Nat} (hv : (s.visit h limit).error? = none)
    (hat : standAt? h entries x = some s)
    (ho : (o, path) ∈ (s.lowered h limit).objects s.site.path) : Described h entries o path := by
  obtain ⟨q, part, hpart, hgiven⟩ := Shape.exists_place_of_mem_objects ho
  cases Stand.madeAt_of_at? hv hpart with
  | node hd hv => exact described_of_lowered hv ((standAt?_append hat q).trans hd) hgiven
  | lost _ _ => cases hgiven

/-- Every object that is reached from the declarations is described. -/
theorem described_of_schemas (hok : (schemas h limit entries).outcome = .ok ds)
    (ho : (o, path) ∈ ds.flatMap fun d => d.objects (schemaPath d.name)) :
    Described h entries o path := by
  obtain ⟨d, hd, ho⟩ := List.mem_flatMap.mp ho
  obtain ⟨⟨name, node⟩, hschema, hvisit⟩ :=
    Text.exists_left_of_mem (visits_of_schemas hok) hd
  have hstand : Stand.ofSchema name node ∈ entries.filterMap schemaStand? := by
    rw [filterMap_schemaStand?]
    exact List.mem_map_of_mem hschema
  obtain ⟨e, he, hs⟩ := List.mem_filterMap.mp hstand
  obtain ⟨i, hi⟩ := List.mem_iff_getElem?.mp he
  have hat := standAt?_schema (h := h) hi hs
  refine described_of_visit (error?_visit_of_ok hok hat) hat ?_
  rw [Stand.lowered, hvisit]
  rw [name_of_visit hvisit] at ho
  exact ho

theorem textsApart_iff_of_names {read : String → String}
    (hnames : o.fields.map (·.name) = (sortedProperties h node).map (·.1)) :
    (o.fields.map fun f => read f.name).Nodup ↔ TextsApart read (propertyEntries h node) := by
  have hread : (o.fields.map fun f => read f.name) =
      (sortedProperties h node).map fun m => read m.1 := by
    have hmapped := congrArg (List.map read) hnames
    rwa [List.map_map, List.map_map] at hmapped
  rw [hread, TextsApart]
  exact (sortedProperties_perm.map _).nodup_iff

/-- Fields are sorted, so that different names are in strict order. -/
theorem fields_increase_iff
    (hnames : o.fields.map (·.name) = (sortedProperties h node).map (·.1)) :
    o.fields.Pairwise (·.name < ·.name) ↔ TextsApart id (propertyEntries h node) := by
  have hsorted : o.fields.Pairwise (·.name ≤ ·.name) := by
    rw [← List.pairwise_map (f := Field.name) (R := (· ≤ ·)), hnames, List.pairwise_map]
    exact sortedProperties_sorted
  rw [← textsApart_iff_of_names hnames, List.Nodup, List.pairwise_map]
  constructor
  · exact fun hlt => hlt.imp fun h => h.ne
  · exact fun hne => (hsorted.and hne).imp fun h => lt_of_le_of_ne h.1 h.2

/-- The declarations of a document have different names, and none of them is lost, just when the keys of
its schemas have different texts. An object at any depth has its fields in strict order just when the keys
of its properties have different texts, and its object literal repeats no key when these are read as
different names. -/
theorem names_apart_iff (hok : (schemas h limit entries).outcome = .ok ds) :
    ((ds.map (·.name)).Nodup ↔ TextsApart id entries) ∧
    ((Layout.ordered ds).Perm ds ↔ TextsApart id entries) ∧
    ∀ o path, (o, path) ∈ (ds.flatMap fun d => d.objects (schemaPath d.name)) →
      (o.isEnum = true ∧ o.fields = []) ∨ ∃ x s, standAt? h entries x = some s ∧
        s.way h = .object ∧ path = s.site.path ∧
        (o.fields.Pairwise (·.name < ·.name) ↔ TextsApart id (propertyEntries h s.node)) ∧
        ∀ r v, Rendered.ofDeclaration r o = .ok v →
          ((v.fields.map fun f => Literal.read f.key).Nodup ↔
            TextsApart Literal.identified (propertyEntries h s.node)) := by
  have hnames : (ds.map (·.name)).Nodup ↔ TextsApart id entries := by
    rw [names_of_schemas hok]
    rfl
  refine ⟨hnames, Layout.ordered_perm_iff.trans hnames, fun o path ho => ?_⟩
  rcases described_of_schemas hok ho with henum | ⟨x, s, hat, hway, hpath, hfields⟩
  · exact .inl henum
  · refine .inr ⟨x, s, hat, hway, hpath, fields_increase_iff hfields, fun r v hv => ?_⟩
    have hkeys : (v.fields.map fun f => Literal.read f.key) =
        o.fields.map fun f => Literal.identified f.name := by
      have hread := congrArg (List.map Literal.read) (Rendered.keys_of_ofDeclaration hv)
      rw [List.map_map, List.map_map] at hread
      exact hread.trans (List.map_congr_left fun f _ => Literal.read_key f.name)
    rw [hkeys]
    exact textsApart_iff_of_names hfields

/-- A schema with a property, and an enum. -/
def namedHeap : Heap := ⟨#[
  .entries [(.str "type", .str "object"), (.str "properties", .map 1)],
  .entries [(.str "b", .map 2)],
  .entries [(.str "type", .str "string")],
  .entries [(.str "enum", .list 4)],
  .items [.str "x"]]⟩

def namedEntries : Entries := [(.str "A", .map 0), (.str "B", .map 3)]

theorem named_apart : ∃ ds, (schemas namedHeap 64 namedEntries).outcome = .ok ds ∧
    (ds.map (·.name)).Nodup ∧ (Layout.ordered ds).Perm ds := by
  have hnone : (schemas namedHeap 64 namedEntries).error? = none := by decide +kernel
  obtain ⟨ds, hok⟩ := Traced.error?_eq_none.mp hnone
  have hapart : TextsApart id namedEntries := by
    refine textsApart_of_texts (by decide) fun e he _ => ?_
    rcases List.mem_cons.mp he with rfl | he
    · exact ⟨"A", rfl⟩
    · obtain rfl := List.mem_singleton.mp he
      exact ⟨"B", rfl⟩
  obtain ⟨hnames, hlost, _⟩ := names_apart_iff hok
  exact ⟨ds, hok, hnames.mpr hapart, hlost.mpr hapart⟩

/-- Schemas, and properties of one of them, under a number and under its text. -/
def numberedHeap : Heap := ⟨#[
  .entries [(.str "type", .str "object"), (.str "properties", .map 1)],
  .entries [(.int 1, .map 2), (.str "1", .map 3)],
  .entries [(.str "type", .str "string")],
  .entries [(.str "type", .str "integer")],
  .entries [(.str "enum", .list 5)],
  .items [.str "x"]]⟩

def numberedEntries : Entries := [(.int 1, .map 0), (.str "1", .map 4)]

theorem numberedHeap_lowered : ∃ ds, (schemas numberedHeap 64 numberedEntries).outcome = .ok ds := by
  have hnamed : namedProperties numberedHeap 0 = [("1", .map 2), ("1", .map 3)] := by
    rw [namedProperties]
    exact (List.mergeSort_of_pairwise (by decide +kernel)).trans (by decide +kernel)
  have hobject : ((Stand.ofSchema "1" 0).visit numberedHeap 64).error? = none := by
    refine Stand.error?_visit_eq_none.mpr ⟨by decide +kernel, fun c hc => ?_⟩
    rw [Stand.children, Stand.way_ofSchema (by decide +kernel), Stand.properties, Stand.ofSchema,
      hnamed] at hc
    rcases List.mem_cons.mp hc with rfl | hc
    · decide +kernel
    · rw [List.mem_singleton.mp hc]
      decide +kernel
  have hnumber : schemaStand? (.int 1, .map 0) = some (Stand.ofSchema "1" 0) :=
    schemaStand?_eq_some.mpr ⟨"1", 0, by decide +kernel, rfl, rfl⟩
  have htext : schemaStand? (.str "1", .map 4) = some (Stand.ofSchema "1" 4) :=
    schemaStand?_eq_some.mpr ⟨"1", 4, rfl, rfl, rfl⟩
  rw [← Traced.error?_eq_none, schemas, Traced.error?_collect, List.findSome?_eq_none_iff]
  intro e he
  rcases List.mem_cons.mp he with rfl | he
  · rw [error?_entry_of_schema hnumber, hobject]
  · rw [List.mem_singleton.mp he, error?_entry_of_schema htext]
    decide +kernel

/-- Keys that are different give two declarations of one name, and an object with two fields of one
name. -/
theorem numbered_names_repeated :
    (numberedEntries.Pairwise fun e e' => e.1.sameKey e'.1 = false) ∧
    ((numberedHeap.entries 1).Pairwise fun e e' => e.1.sameKey e'.1 = false) ∧
    ∃ ds, (schemas numberedHeap 64 numberedEntries).outcome = .ok ds ∧
      ¬ (ds.map (·.name)).Nodup ∧ ∃ d ∈ ds, ¬ d.fields.Pairwise (·.name < ·.name) := by
  obtain ⟨ds, hok⟩ := numberedHeap_lowered
  refine ⟨by decide, by decide, ds, hok, ?_, ?_⟩
  · rw [names_of_schemas hok]
    decide +kernel
  · obtain ⟨d, hd, hvisit⟩ := Text.exists_right_of_mem (visits_of_schemas hok)
      (x := ("1", 0)) (by decide +kernel)
    have hfields := names_of_visit (by decide +kernel) hvisit
    refine ⟨d, hd, fun hlt => ?_⟩
    have hapart := (fields_increase_iff hfields).mp hlt
    revert hapart
    rw [TextsApart]
    decide +kernel

end Lowering
end SchemaCompiler
