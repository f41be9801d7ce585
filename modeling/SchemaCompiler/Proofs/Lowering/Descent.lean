import SchemaCompiler.Proofs.Lowering.Dangling

/-!
Places in declarations and places of nodes. What stands at a place in the shape of a node was made from
the node at that place. Only the items of an array that names none were made from nothing.
-/
namespace SchemaCompiler

theorem Gathers.exists_place {α : Type} {at? : List Nat → Option α} {R : List Nat → List Nat → Prop}
    {values : List α} {v : α} (hx : Gathers at? R values) (hv : v ∈ values) : ∃ p, at? p = some v := by
  obtain ⟨places, _, _, hvalues⟩ := hx
  obtain ⟨p, _, hp⟩ := Text.exists_left_of_mem hvalues hv
  exact ⟨p, hp⟩

/-- An object in a shape is given at a place in it. -/
theorem Shape.exists_place_of_mem_objects {s : Shape} {o : Declaration} {path path' : String}
    (ho : (o, path') ∈ s.objects path) :
    ∃ q part, s.at? path q = some (part, path') ∧ part.given? = some o := by
  rw [objects_eq_filterMap] at ho
  obtain ⟨⟨part, place⟩, hpart, ho⟩ := List.mem_filterMap.mp ho
  obtain ⟨given, hgiven, ho⟩ := Option.map_eq_some_iff.mp ho
  cases ho
  obtain ⟨q, hq⟩ := (s.gathers_parts path).exists_place hpart
  exact ⟨q, part, hq, hgiven⟩

namespace Lowering

variable {h : Heap} {limit : Int} {entries : Entries} {s t : Stand} {q : List Nat}
  {part : Shape × String}

namespace Stand

theorem length_outer_of_descend (hd : s.descend h q = some t) :
    t.outer.length = s.outer.length + q.length := by
  induction q generalizing s with
  | nil =>
    cases hd
    rfl
  | cons i q ih =>
    obtain ⟨c, hc, hd⟩ := Option.bind_eq_some_iff.mp hd
    rw [ih hd, outer_of_mem_children (List.mem_of_getElem? hc), List.length_cons, List.length_cons]
    omega

/-- The items of an array that names none. -/
def lostItems (h : Heap) (s : Stand) : List (Shape × String) :=
  match s.way h, s.items? h with
  | .array, none => [(.unknown, s.site.items.path)]
  | _, _ => []

/-- An array that has lost its items has no nodes below it. -/
theorem lostItems_cases (h : Heap) (s : Stand) : s.lostItems h = [] ∨
    s.children h = [] ∧ s.lostItems h = [(.unknown, s.site.items.path)] := by
  rw [lostItems]
  split
  next hw hi =>
    refine .inr ⟨?_, rfl⟩
    rw [children, hw, hi]
    rfl
  next => exact .inl rfl

/-- The shapes right below the shape of a node are those of the nodes right below it. -/
theorem children_lowered (hv : (s.visit h limit).error? = none) :
    (s.lowered h limit).children s.site.path =
      (s.children h).map (fun c => (c.lowered h limit, c.site.path)) ++ s.lostItems h := by
  rw [lowered_eq hv, shapeBy, children, lostItems]
  cases hw : s.way h with
  | enum =>
    dsimp only [enumShape]
    split <;> rfl
  | reference target =>
    dsimp only [referenceTo]
    split <;> rfl
  | object =>
    dsimp only [Shape.children]
    rw [Declaration.object, Declaration.ordered, sortFields_fields, fields, List.map_map,
      List.append_nil]
    refine List.map_congr_left fun c hc => ?_
    rw [Function.comp_apply, path_of_mem_properties hc _ rfl]
  | array =>
    cases hi : s.items? h with
    | none => rfl
    | some c =>
      obtain ⟨_, _, rfl⟩ := Option.map_eq_some_iff.mp hi
      rfl
  | plain type =>
    obtain ⟨name, format, hplain⟩ := exists_primitive_shape h s.node type
    dsimp only
    rw [hplain]
    rfl

/-- What is at a place in the shape of a node: the shape of the node at this place, or what the items of
an array become that names none. -/
inductive MadeAt (h : Heap) (limit : Int) (s : Stand) : List Nat → Shape × String → Prop
  | node {q : List Nat} {t : Stand} (hd : s.descend h q = some t)
      (hv : (t.visit h limit).error? = none) : MadeAt h limit s q (t.lowered h limit, t.site.path)
  | lost {q : List Nat} {t : Stand} (hd : s.descend h q = some t)
      (hv : (t.visit h limit).error? = none) :
      MadeAt h limit s (q ++ [0]) (.unknown, t.site.items.path)

theorem MadeAt.cons {c : Stand} {i : Nat} (hc : (s.children h)[i]? = some c)
    (hm : c.MadeAt h limit q part) : s.MadeAt h limit (i :: q) part := by
  have hdescend {q : List Nat} {t : Stand} (hd : c.descend h q = some t) :
      s.descend h (i :: q) = some t := by rw [descend, hc]; exact hd
  cases hm with
  | node hd hv => exact .node (hdescend hd) hv
  | lost hd hv => exact .lost (hdescend hd) hv

theorem madeAt_of_at? (hv : (s.visit h limit).error? = none)
    (hp : (s.lowered h limit).at? s.site.path q = some part) : s.MadeAt h limit q part := by
  induction q generalizing s with
  | nil =>
    cases hp
    exact .node rfl hv
  | cons i q ih =>
    obtain ⟨c, hc, hp⟩ := Option.bind_eq_some_iff.mp hp
    rw [children_lowered hv] at hc
    rcases lostItems_cases h s with hnone | ⟨hchildren, hlost⟩
    · rw [hnone, List.append_nil, List.getElem?_map] at hc
      obtain ⟨t, ht, rfl⟩ := Option.map_eq_some_iff.mp hc
      have htv := (error?_visit_eq_none.mp hv).2 t (List.mem_of_getElem? ht)
      exact (ih htv hp).cons ht
    · rw [hchildren, hlost, List.map_nil, List.nil_append] at hc
      obtain rfl : i = 0 := by
        have hlt := (List.getElem?_eq_some_iff.mp hc).1
        rw [List.length_singleton] at hlt
        omega
      cases hc
      -- nothing lies below items that are not known
      cases q with
      | nil =>
        cases hp
        exact .lost (q := []) rfl hv
      | cons j q => cases hp

end Stand
end Lowering
end SchemaCompiler
