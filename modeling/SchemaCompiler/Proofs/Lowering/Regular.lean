import Mathlib.Data.List.TakeWhile
import SchemaCompiler.Proofs.Lowering.Names

/-!
What every part of the declarations that schemas are lowered to is like, at any depth: fields are sorted
and required just when their object says so, objects in place are named after their properties, and no
part lies deeper than the limit allows.
-/
namespace SchemaCompiler

/-- A shape as the property `name` has it: an object given in place has this name, and the items of an
array are named after the array. -/
def Shape.Named : String → Shape → Prop
  | name, .array element => element.Named (name ++ "Item")
  | name, .object _ (some d) => d.name = name ∧ d.isEnum = false
  | _, _ => True

structure Declaration.IsRegular (d : Declaration) : Prop where
  sorted : d.fields.Pairwise (·.name ≤ ·.name)
  requiredSorted : d.required.Pairwise (· < ·)
  required : ∀ f ∈ d.fields, f.required = true ↔ f.name ∈ d.required
  ofEnum : d.isEnum = true → d.fields = [] ∧ d.required = []
  ofObject : d.isEnum = false → d.members = []
  named : ∀ f ∈ d.fields, f.shape.Named f.name

/-- An object is given in place and refers to nothing, a reference has no segments left, and only the
scalars have formats. -/
def Shape.IsRegular : Shape → Prop
  | .primitive name format => name ≠ "" ∧ (format ≠ "" → name ∈ scalarNames)
  | .reference target => '/' ∉ target.toList
  | .object target given => target = none ∧ ∃ d, given = some d ∧ d.IsRegular
  | .array _ | .enum _ _ _ => True

theorem Shape.isRegular_unknown : Shape.unknown.IsRegular :=
  ⟨by decide, fun h => absurd rfl h⟩

namespace Lowering

variable {h : Heap} {limit : Int} {entries : Entries} {ds : List Declaration} {s : Stand}

theorem isRegular_referenceTo (target : Value) : (referenceTo target).IsRegular := by
  unfold referenceTo
  split
  · exact Naming.slash_notMem_lastSegment _
  · exact Shape.isRegular_unknown

theorem isRegular_plainShape (node : Address) (type : Value) : (plainShape h node type).IsRegular := by
  unfold plainShape
  split
  · split
    next hname =>
      refine ⟨?_, fun _ => List.contains_iff_mem.mp hname⟩
      rintro rfl
      revert hname
      decide
    next =>
      refine ⟨?_, fun h => absurd rfl h⟩
      split
      · decide
      next hne => simpa using hne
  · exact Shape.isRegular_unknown

/-- An enum schema is declared with its members alone. -/
theorem isRegular_enum (name description : String) (members : List String) :
    (Declaration.enum name description members).IsRegular where
  sorted := .nil
  requiredSorted := .nil
  required := fun f hf => by cases hf
  ofEnum := fun _ => ⟨rfl, rfl⟩
  ofObject := fun h => by cases h
  named := fun f hf => by cases hf

/-- An object is declared regularly when the shapes below it have the names of their properties. -/
theorem isRegular_objectBy {shape : Stand → Shape}
    (hnamed : ∀ c ∈ s.properties h, (shape c).Named c.site.name) :
    (s.objectBy h shape).IsRegular := by
  have hfields : (s.objectBy h shape).fields = s.fields h shape := sortFields_fields shape
  refine ⟨?_, sortNames_sorted, fun f hf => ?_, fun h => (by cases h), fun _ => rfl, fun f hf => ?_⟩
  · exact pairwise_mergeSort_le Field.name _
  · rw [hfields] at hf
    obtain ⟨c, hc, rfl⟩ := List.mem_map.mp hf
    exact List.contains_iff_mem.trans mem_sortNames.symm
  · rw [hfields] at hf
    obtain ⟨c, hc, rfl⟩ := List.mem_map.mp hf
    exact hnamed c hc

/-- An object in place is named after its property, and so are the items of arrays. -/
theorem named_lowered (s : Stand) (hv : (s.visit h limit).error? = none) (ho : s.outer ≠ []) :
    (s.lowered h limit).Named s.site.name := by
  induction s using Stand.visit_induction h limit with
  | step s ih =>
    obtain ⟨hstop, hbelow⟩ := Stand.error?_visit_eq_none.mp hv
    rw [Stand.lowered_eq hv, Stand.shapeBy]
    cases hw : s.way h with
    | enum =>
      dsimp only
      rw [Stand.enumShape, if_neg (by simpa using ho)]
      exact trivial
    | reference target =>
      dsimp only [referenceTo]
      split <;> exact trivial
    | object => exact ⟨rfl, rfl⟩
    | array =>
      dsimp only
      cases hi : s.items? h with
      | none => exact trivial
      | some c =>
        have hc : c ∈ s.children h := by simp [Stand.children, hw, hi]
        have hname : c.site.name = s.site.name ++ "Item" := by
          obtain ⟨_, _, rfl⟩ := Option.map_eq_some_iff.mp hi
          rfl
        have hitems := ih (Stand.stop?_eq_none.mp hstop).1 c hc (hbelow c hc)
          (Stand.outer_ne_nil_of_mem_children hc)
        rwa [hname] at hitems
    | plain type =>
      obtain ⟨name, format, hplain⟩ := exists_primitive_shape h s.node type
      dsimp only
      rw [hplain]
      exact trivial

theorem isRegular_lowered (hv : (s.visit h limit).error? = none) :
    (s.lowered h limit).IsRegular := by
  obtain ⟨_, hbelow⟩ := Stand.error?_visit_eq_none.mp hv
  rw [Stand.lowered_eq hv, Stand.shapeBy]
  cases hw : s.way h with
  | enum =>
    dsimp only [Stand.enumShape]
    split
    · exact ⟨rfl, _, rfl, isRegular_enum ..⟩
    · exact trivial
  | reference target => exact isRegular_referenceTo target
  | object =>
    refine ⟨rfl, _, rfl, isRegular_objectBy fun c hc => ?_⟩
    have hc : c ∈ s.children h := by rwa [Stand.children, hw]
    exact named_lowered c (hbelow c hc) (Stand.outer_ne_nil_of_mem_children hc)
  | array => exact trivial
  | plain type => exact isRegular_plainShape s.node type

theorem length_outer_of_visit (hv : (s.visit h limit).error? = none) :
    (s.outer.length : Int) < limit := by
  have hg := (Stand.stop?_eq_none.mp (Stand.error?_visit_eq_none.mp hv).1).1
  have hlt := Stand.length_outer_of_guard? hg
  omega

/-- All parts of the shape of a node are regular, and none lies deeper than the limit allows. -/
theorem regular_of_madeAt {q : List Nat} {part : Shape × String} (hm : s.MadeAt h limit q part) :
    part.1.IsRegular ∧ (s.outer.length + q.length : Int) ≤ limit := by
  cases hm with
  | node hd hv =>
    have hlt := length_outer_of_visit hv
    rw [Stand.length_outer_of_descend hd] at hlt
    exact ⟨isRegular_lowered hv, by omega⟩
  | lost hd hv =>
    -- items that are lost take the last level that their array may have below it
    have hlt := length_outer_of_visit hv
    rw [Stand.length_outer_of_descend hd] at hlt
    exact ⟨Shape.isRegular_unknown, by rw [List.length_append, List.length_singleton]; omega⟩

/-- Whenever lowering goes through, every part of the declarations is regular, at any depth, and no more
shapes lie on the way to it than the limit allows. -/
theorem lowered_regular (hok : (schemas h limit entries).outcome = .ok ds) (i : Nat) (q : List Nat)
    (part : Shape × String) (hp : shapeAt? ds (i :: q) = some part) :
    part.1.IsRegular ∧ (q.length : Int) ≤ limit := by
  obtain ⟨d, hd, hp⟩ := Option.bind_eq_some_iff.mp hp
  obtain ⟨⟨name, node⟩, _, hvisit⟩ :=
    Text.exists_left_of_mem (visits_of_schemas hok) (List.mem_of_getElem? hd)
  have hlowered : (Stand.ofSchema name node).lowered h limit = d.whole := by
    rw [Stand.lowered, hvisit]
    rfl
  dsimp only at hp
  rw [name_of_visit hvisit, ← hlowered] at hp
  have hmade := Stand.madeAt_of_at? (Traced.error?_eq_none.mpr ⟨_, hvisit⟩) hp
  obtain ⟨hregular, hdepth⟩ := regular_of_madeAt hmade
  exact ⟨hregular, by simpa [Stand.ofSchema] using hdepth⟩

/-- A schema with lists of lists of objects that require a field they have. -/
def rowsHeap : Heap := ⟨#[
  .entries [(.str "type", .str "object"), (.str "properties", .map 1)],
  .entries [(.str "rows", .map 2)],
  .entries [(.str "type", .str "array"), (.str "items", .map 3)],
  .entries [(.str "type", .str "array"), (.str "items", .map 4)],
  .entries [(.str "type", .str "object"), (.str "required", .list 5), (.str "properties", .map 6)],
  .items [.str "cell"],
  .entries [(.str "cell", .map 7)],
  .entries [(.str "type", .str "string"), (.str "format", .str "uuid")]]⟩

/-- The objects in the rows are regular, four levels down. -/
theorem rows_regular : ∃ ds part, (schemas rowsHeap 5 [(.str "Table", .map 0)]).outcome = .ok ds ∧
    shapeAt? ds [0, 0, 0, 0] = some part ∧ part.1.IsRegular ∧ (3 : Int) ≤ 5 := by
  have hpart : ((schemas rowsHeap 5 [(.str "Table", .map 0)]).outcome.toOption.bind
      (shapeAt? · [0, 0, 0, 0])).isSome := by decide +kernel
  obtain ⟨part, hpart⟩ := Option.isSome_iff_exists.mp hpart
  obtain ⟨ds, hds, hpart⟩ := Option.bind_eq_some_iff.mp hpart
  have hok : (schemas rowsHeap 5 [(.str "Table", .map 0)]).outcome = .ok ds := by
    generalize (schemas rowsHeap 5 [(.str "Table", .map 0)]).outcome = outcome at hds
    cases outcome with
    | error e => cases hds
    | ok ds => cases hds; rfl
  exact ⟨ds, part, hok, hpart, lowered_regular hok 0 [0, 0, 0] part hpart⟩

end Lowering
end SchemaCompiler
