import SchemaCompiler.Proofs.Declarations.Places
import SchemaCompiler.Proofs.Lowering.Guard
import SchemaCompiler.Proofs.Rendering.Reference

/-!
Dangling references. Lowering gives every node that refers to another schema a shape in one of the
declarations, and going through the declarations finds it again under the path of the node.
-/
namespace SchemaCompiler

/-- The names that the layers of a shape refer to, with their paths. -/
def Shape.pointed (s : Shape) (path : String) : List (String × String) :=
  (s.layers path).filterMap fun (layer, path) => (Lint.target? layer).map (·, path)

/-- The names that the fields of the objects in a shape refer to, with their paths. -/
def Shape.inside (s : Shape) (path : String) : List (String × String) :=
  (s.objects path).flatMap fun (owner, path) =>
    owner.fields.flatMap fun f => f.shape.pointed (f.path path)

/-- The names in the objects in a shape are those that the layers of their fields refer to. -/
theorem Shape.inside_eq (s : Shape) (path : String) : s.inside path =
    (s.nested path).filterMap fun (layer, path) => (Lint.target? layer).map (·, path) := by
  rw [nested, List.filterMap_flatMap]
  refine List.flatMap_congr fun owner _ => ?_
  rw [List.filterMap_flatMap]
  rfl

/-- The fields of an object come before those of the objects inside it. -/
theorem Shape.inside_object (d : Declaration) (path : String) :
    (Shape.object none (some d)).inside path =
      (d.fields.flatMap fun f => f.shape.pointed (f.path path)) ++
        d.fields.flatMap fun f => f.shape.inside (f.path path) := by
  rw [inside_eq, nested_object, List.filterMap_append, List.filterMap_flatMap, List.filterMap_flatMap]
  simp only [inside_eq]
  rfl

theorem Lint.filterMap_shapes (d : Declaration) :
    (Lint.shapes d).filterMap (fun (layer, path) => (Lint.target? layer).map (·, path)) =
      (Shape.object none (some d)).inside (schemaPath d.name) :=
  ((Shape.object none (some d)).inside_eq (schemaPath d.name)).symm

/-- What is reported of a name that is referred to. -/
def Lint.dangling? (names : List String) (reference : String × String) : Option Diagnostic :=
  if names.contains reference.1 then none
  else some ((Finding.danglingReference reference.1 (similar? names reference.1)).atPath
    reference.2)

/-- The references in some declarations that name none of them. -/
theorem Lint.references_eq (ds : List Declaration) : Lint.references ds =
    (ds.flatMap fun d => (Shape.object none (some d)).inside (schemaPath d.name)).filterMap
      (dangling? (sortNames (ds.map (·.name)))) := by
  have hinside : (ds.flatMap fun d => (Shape.object none (some d)).inside (schemaPath d.name)) =
      (ds.flatMap shapes).filterMap fun (layer, path) =>
        (Lint.target? layer).map (·, path) := by
    rw [List.filterMap_flatMap]
    exact List.flatMap_congr fun d _ => (filterMap_shapes d).symm
  rw [hinside, List.filterMap_filterMap, references]
  refine List.filterMap_congr ?_
  rintro ⟨layer, path⟩ _
  cases hlayer : Lint.target? layer <;> simp [hlayer, dangling?]

namespace Lowering

variable {h : Heap} {limit : Int} {entries : Entries} {s c : Stand} {p x : List Nat} {i : Nat}

/-- A node below the schemas that is no enum and refers to a schema with a pointer. -/
def Stand.Points (h : Heap) (s : Stand) (pointer : String) : Prop :=
  s.outer ≠ [] ∧ h.find? s.node "enum" = none ∧ h.find? s.node "$ref" = some (.str pointer) ∧
    pointer ≠ ""

theorem Stand.points_iff {pointer : String} :
    s.Points h pointer ↔ s.way h = .reference (.str pointer) ∧ pointer ≠ "" := by
  by_cases ho : s.outer = []
  · refine iff_of_false (fun hp => hp.1 ho) ?_
    rintro ⟨hw, _⟩
    rw [way, ho] at hw
    cases he : h.find? s.node "enum" <;> simp [he] at hw
  · rw [way_of_outer_ne_nil ho, wayOf_eq_reference, Points]
    tauto

theorem Stand.Points.unique {pointer other : String} (hp : s.Points h pointer)
    (ho : s.Points h other) : pointer = other := by
  cases hp.2.2.1.symm.trans ho.2.2.1
  rfl

theorem pointer?_eq_some {v : Value} {pointer : String} :
    v.pointer? = some pointer ↔ v = .str pointer ∧ pointer ≠ "" := by
  fun_cases Value.pointer? v with
  | case1 text he =>
    constructor
    · intro hnone
      cases hnone
    · rintro ⟨heq, hne⟩
      cases heq
      exact absurd (beq_iff_eq.mp he) hne
  | case2 text he =>
    constructor
    · rintro ⟨⟩
      exact ⟨rfl, fun heq => he (beq_iff_eq.mpr heq)⟩
    · rintro ⟨heq, _⟩
      cases heq
      rfl
  | case3 v hv =>
    constructor
    · intro hnone
      cases hnone
    · rintro ⟨rfl, _⟩
      exact absurd rfl (hv pointer)

theorem exists_primitive_shape (h : Heap) (node : Address) (type : Value) :
    ∃ name format, plainShape h node type = .primitive name format := by
  unfold plainShape
  split
  · split <;> exact ⟨_, _, rfl⟩
  · exact ⟨_, _, rfl⟩

/-- A node that refers to a schema stands at a place. -/
def PointsAt (h : Heap) (entries : Entries) (x : List Nat) : Prop :=
  ∃ s pointer, standAt? h entries x = some s ∧ s.Points h pointer

/-- A name and a path are those of the reference at a place. -/
def RefersAs (h : Heap) (entries : Entries) (x : List Nat) (reference : String × String) : Prop :=
  ∃ s pointer, standAt? h entries x = some s ∧ s.Points h pointer ∧
    reference = (Naming.lastSegment pointer, s.site.path)

/-- The references at or below a place that belong to an object above it. -/
def Own (h : Heap) (entries : Entries) (p x : List Nat) : Prop :=
  p <+: x ∧ ¬ p <+: owner h entries x ∧ PointsAt h entries x

/-- The references that belong to an object at or below a place. -/
def Nested (h : Heap) (entries : Entries) (p x : List Nat) : Prop :=
  p <+: owner h entries x ∧ PointsAt h entries x

theorem objectAt_of_way (hs : standAt? h entries p = some s) (hw : s.way h = .object) :
    objectAt h entries p := by
  simp [objectAt, hs, hw]

theorem way_of_objectAt (hs : standAt? h entries p = some s) (ho : objectAt h entries p) :
    s.way h = .object := by
  rw [objectAt, hs, Option.any_some] at ho
  split at ho
  · assumption
  · cases ho

/-- A place above a reference that is no reference itself goes on to one of its children. -/
theorem exists_child (hs : standAt? h entries p = some s) (hp : p <+: x)
    (hx : PointsAt h entries x) (hself : ∀ pointer, ¬ s.Points h pointer) :
    ∃ i c, (s.children h)[i]? = some c ∧ p ++ [i] <+: x := by
  obtain ⟨t, pointer, ht, hpoints⟩ := hx
  rcases standAt?_of_isPrefix hs hp ht with ⟨_, rfl⟩ | ⟨i, c, hc, _, hi⟩
  · exact absurd hpoints (hself pointer)
  · exact ⟨i, c, hc, hi⟩

theorem not_points_of_way {way : Way} (hw : s.way h = way) (hway : ∀ target, way ≠ .reference target)
    (pointer : String) : ¬ s.Points h pointer := by
  intro hp
  exact hway _ (hw.symm.trans (Stand.points_iff.mp hp).1)

/-- An owner below a place is at or below the same child of it as what it owns. -/
theorem prefix_owner_of_ne (hx : p ++ [i] <+: x) (hp : p <+: owner h entries x)
    (hne : owner h entries x ≠ p) : p ++ [i] <+: owner h entries x := by
  refine List.prefix_of_prefix_length_le hx owner_isPrefix ?_
  have hlt : p.length < (owner h entries x).length :=
    lt_of_le_of_ne hp.length_le fun heq => hne (hp.eq_of_length heq).symm
  rw [List.length_append]
  exact hlt

theorem owner_of_own (ho : objectAt h entries p) (hown : Own h entries (p ++ [i]) x) :
    owner h entries x = p := by
  obtain ⟨hx, hnot, _⟩ := hown
  have hpx : p <+: x := (List.prefix_append p [i]).trans hx
  by_contra hother
  exact hnot (prefix_owner_of_ne hx (prefix_owner hpx (lt_of_child hx).ne ho) hother)

/-- References of an object are those of its fields and those inside its fields. -/
theorem nested_of_object (hs : standAt? h entries p = some s) (hw : s.way h = .object) :
    ((∃ i < (s.children h).length, Own h entries (p ++ [i]) x) ∨
      ∃ i < (s.children h).length, Nested h entries (p ++ [i]) x) ↔ Nested h entries p x := by
  have ho := objectAt_of_way hs hw
  constructor
  · rintro (⟨i, _, hown⟩ | ⟨i, _, hprefix, hx⟩)
    · have hself := owner_of_own ho hown
      exact ⟨(congrArg (p <+: ·) hself).mpr List.prefix_rfl, hown.2.2⟩
    · exact ⟨(List.prefix_append p [i]).trans hprefix, hx⟩
  · rintro ⟨hp, hx⟩
    obtain ⟨i, c, hc, hi⟩ := exists_child hs (hp.trans owner_isPrefix) hx
      (not_points_of_way hw fun _ => Way.noConfusion)
    have hlt : i < (s.children h).length := (List.getElem?_eq_some_iff.mp hc).1
    by_cases hin : p ++ [i] <+: owner h entries x
    · exact .inr ⟨i, hlt, hin, hx⟩
    · exact .inl ⟨i, hlt, hi, hin, hx⟩

/-- Nothing below a node without children refers to a schema. -/
theorem not_below (hs : standAt? h entries p = some s) (hc : s.children h = [])
    (hself : ∀ pointer, ¬ s.Points h pointer) (hp : p <+: x) : ¬ PointsAt h entries x := by
  intro hx
  obtain ⟨i, c, hi, _⟩ := exists_child hs hp hx hself
  rw [hc] at hi
  cases hi

/-- All references below an array are at or below its items. -/
theorem prefix_of_only_child (hs : standAt? h entries p = some s) (hw : s.way h = .array)
    (hc : s.children h = [c]) (hp : p <+: x) (hx : PointsAt h entries x) : p ++ [0] <+: x := by
  obtain ⟨i, d, hd, hi⟩ := exists_child hs hp hx
    (not_points_of_way hw fun _ => Way.noConfusion)
  have hlt := (List.getElem?_eq_some_iff.mp hd).1
  rw [hc, List.length_singleton] at hlt
  obtain rfl : i = 0 := by omega
  exact hi

/-- An array belongs to the object that its items belong to. -/
theorem nested_of_array (hs : standAt? h entries p = some s) (hw : s.way h = .array)
    (hc : s.children h = [c]) :
    Nested h entries (p ++ [0]) x ↔ Nested h entries p x := by
  refine ⟨fun hn => ⟨(List.prefix_append p [0]).trans hn.1, hn.2⟩, ?_⟩
  rintro ⟨hp, hx⟩
  have hi := prefix_of_only_child hs hw hc (hp.trans owner_isPrefix) hx
  refine ⟨prefix_owner_of_ne hi hp fun hself => ?_, hx⟩
  have hobject : objectAt h entries p := by
    have ho := @objectAt_owner h entries x (hself ▸ place_ne_nil hs)
    rwa [hself] at ho
  cases (way_of_objectAt hs hobject).symm.trans hw

theorem own_of_array (hs : standAt? h entries p = some s) (hw : s.way h = .array)
    (hc : s.children h = [c]) : Own h entries (p ++ [0]) x ↔ Own h entries p x := by
  have hnested := nested_of_array (x := x) hs hw hc
  constructor
  · rintro ⟨hp, hnot, hx⟩
    exact ⟨(List.prefix_append p [0]).trans hp, fun hin => hnot (hnested.mpr ⟨hin, hx⟩).1, hx⟩
  · rintro ⟨hp, hnot, hx⟩
    have hi := prefix_of_only_child hs hw hc hp hx
    exact ⟨hi, fun hin => hnot (hnested.mp ⟨hin, hx⟩).1, hx⟩

/-- The references in the shape of a node are found in it: first those that belong to an object
above it, and then those of the objects in it. -/
structure Found (h : Heap) (limit : Int) (entries : Entries) (p : List Nat) (s : Stand) : Prop where
  own : Lists (Own h entries p) (· < ·) (RefersAs h entries)
    ((s.lowered h limit).pointed s.site.path)
  nested : Lists (Nested h entries p) (Before h entries) (RefersAs h entries)
    ((s.lowered h limit).inside s.site.path)

theorem found_of_leaf (hs : standAt? h entries p = some s) (hc : s.children h = [])
    (hself : ∀ pointer, ¬ s.Points h pointer)
    (hown : (s.lowered h limit).pointed s.site.path = [])
    (hnested : (s.lowered h limit).inside s.site.path = []) : Found h limit entries p s := by
  constructor
  · rw [hown]
    exact .nil fun x hx => not_below hs hc hself hx.1 hx.2.2
  · rw [hnested]
    exact .nil fun x hx => not_below hs hc hself (hx.1.trans owner_isPrefix) hx.2

theorem found_of_reference {pointer : String} (hs : standAt? h entries p = some s)
    (hp : s.Points h pointer) (hc : s.children h = [])
    (hl : s.lowered h limit = .reference (Naming.lastSegment pointer)) :
    Found h limit entries p s := by
  have hat : PointsAt h entries p := ⟨s, pointer, hs, hp⟩
  have honly : ∀ x, p <+: x → PointsAt h entries x → x = p := by
    rintro x hx ⟨t, other, ht, _⟩
    rcases standAt?_of_isPrefix hs hx ht with ⟨heq, _⟩ | ⟨i, c, hi, _⟩
    · exact heq
    · rw [hc] at hi
      cases hi
  have hself : ¬ p <+: owner h entries p := fun hle =>
    owner_ne (place_ne_nil hs) (owner_isPrefix.eq_of_length_le hle.length_le)
  constructor
  · rw [hl]
    refine .singleton (fun x => ⟨fun hx => honly x hx.1 hx.2.2, ?_⟩) ⟨s, pointer, hs, hp, rfl⟩
    rintro rfl
    exact ⟨List.prefix_rfl, hself, hat⟩
  · rw [hl]
    refine .nil fun x hx => ?_
    obtain rfl := honly x (hx.1.trans owner_isPrefix) hx.2
    exact hself hx.1

/-- The path of a property is that of its field. -/
theorem path_of_mem_properties (hc : c ∈ s.properties h) (f : Field) (hf : f.name = c.site.name) :
    f.path s.site.path = c.site.path := by
  obtain ⟨⟨name, v⟩, _, hp⟩ := List.mem_filterMap.mp hc
  obtain ⟨a, _, rfl⟩ := Option.map_eq_some_iff.mp hp
  rw [Field.path, hf]
  rfl

theorem inside_of_object (hw : s.way h = .object)
    (hl : s.lowered h limit = s.shapeBy h (Stand.lowered h limit)) :
    (s.lowered h limit).inside s.site.path =
      ((s.children h).flatMap fun c => (c.lowered h limit).pointed c.site.path) ++
        (s.children h).flatMap fun c => (c.lowered h limit).inside c.site.path := by
  rw [hl, Stand.shapeBy, hw]
  simp only [Shape.inside_object, Declaration.object, Declaration.ordered, sortFields_fields]
  rw [Stand.fields, List.flatMap_map, List.flatMap_map, Stand.children, hw]
  congr 1
  · refine List.flatMap_congr fun c hc => ?_
    rw [path_of_mem_properties hc _ rfl]
  · refine List.flatMap_congr fun c hc => ?_
    rw [path_of_mem_properties hc _ rfl]

/-- The references of an object are found child by child: first all that are its own, and then those
inside the children. -/
theorem found_of_object (hs : standAt? h entries p = some s) (hw : s.way h = .object)
    (hl : s.lowered h limit = s.shapeBy h (Stand.lowered h limit))
    (hchildren : ∀ i c, (s.children h)[i]? = some c → Found h limit entries (p ++ [i]) c) :
    Found h limit entries p s := by
  have ho := objectAt_of_way hs hw
  have hownerOf : ∀ i x, Own h entries (p ++ [i]) x → owner h entries x = p := fun i x hx =>
    owner_of_own ho hx
  constructor
  · have hnone : (s.lowered h limit).pointed s.site.path = [] := by
      rw [hl, Stand.shapeBy, hw]
      rfl
    rw [hnone]
    refine .nil fun x hown => ?_
    obtain ⟨hx, hnot, t, pointer, ht, hp⟩ := hown
    refine hnot (prefix_owner hx ?_ ho)
    rintro rfl
    cases hs.symm.trans ht
    exact not_points_of_way hw (fun _ => Way.noConfusion) pointer hp
  · rw [inside_of_object hw hl]
    have hfields := Lists.flatMap (fun i c hc => (hchildren i c hc).own)
      fun i j hij x y hx hy => lt_of_branch hij hx.1 hy.1
    have hbelow := Lists.flatMap (fun i c hc => (hchildren i c hc).nested)
      fun i j hij x y hx hy => before_iff.mpr (.inl (lt_of_branch hij hx.1 hy.1))
    refine ((hfields.mono ?_).append hbelow ?_).congr fun x => nested_of_object hs hw
    · rintro x y ⟨i, _, hx⟩ ⟨j, _, hy⟩ hlt
      exact before_iff.mpr (.inr ⟨(hownerOf i x hx).trans (hownerOf j y hy).symm, hlt⟩)
    · rintro x y ⟨i, _, hx⟩ ⟨j, _, hy⟩
      rw [before_iff, hownerOf i x hx]
      exact .inl (lt_of_child hy.1)

theorem found_of_array (hs : standAt? h entries p = some s) (hw : s.way h = .array)
    (hl : s.lowered h limit = s.shapeBy h (Stand.lowered h limit))
    (hchildren : ∀ i c, (s.children h)[i]? = some c → Found h limit entries (p ++ [i]) c) :
    Found h limit entries p s := by
  have hc : s.children h = (s.items? h).toList := by rw [Stand.children, hw]
  have hshape : s.lowered h limit = .array (((s.items? h).map (Stand.lowered h limit)).getD
      .unknown) := by rw [hl, Stand.shapeBy, hw]
  have hself := not_points_of_way hw fun _ => Way.noConfusion
  cases hi : s.items? h with
  | none =>
    rw [hi] at hc hshape
    exact found_of_leaf hs hc hself (by rw [hshape]; rfl) (by rw [hshape]; rfl)
  | some c =>
    rw [hi] at hc hshape
    have hpath : c.site.path = s!"{s.site.path}.items" := by
      obtain ⟨a, _, rfl⟩ := Option.map_eq_some_iff.mp hi
      rfl
    obtain ⟨hown, hnested⟩ := hchildren 0 c (by rw [hc]; rfl)
    rw [hpath] at hown hnested
    constructor
    · rw [hshape]
      exact hown.congr fun x => own_of_array hs hw hc
    · rw [hshape]
      exact hnested.congr fun x => nested_of_array hs hw hc

/-- Every reference that is visited is found in the shape that its visit goes into. -/
theorem found_of_visit (s : Stand) (hv : (s.visit h limit).error? = none) (p : List Nat)
    (hs : standAt? h entries p = some s) : Found h limit entries p s := by
  induction s using Stand.visit_induction h limit generalizing p with
  | step s ih =>
    obtain ⟨hstop, hbelow⟩ := Stand.error?_visit_eq_none.mp hv
    have hl : s.lowered h limit = s.shapeBy h (Stand.lowered h limit) := Stand.lowered_eq hv
    have hchildren : ∀ i c, (s.children h)[i]? = some c →
        Found h limit entries (p ++ [i]) c := by
      intro i c hc
      have hmem := List.mem_of_getElem? hc
      exact ih (Stand.stop?_eq_none.mp hstop).1 c hmem (hbelow c hmem) _ (standAt?_child hs hc)
    cases hw : s.way h with
    | enum =>
      have hc : s.children h = [] := by rw [Stand.children, hw]
      have hself := not_points_of_way hw fun _ => Way.noConfusion
      rw [Stand.shapeBy, hw] at hl
      refine found_of_leaf hs hc hself ?_ ?_
      · rw [hl]
        simp only [Stand.enumShape]
        split <;> rfl
      · rw [hl]
        simp only [Stand.enumShape]
        split <;> rfl
    | reference target =>
      have hc : s.children h = [] := by rw [Stand.children, hw]
      cases hp : target.pointer? with
      | some pointer =>
        simp only [Stand.shapeBy, hw, referenceTo, hp] at hl
        obtain ⟨rfl, hne⟩ := pointer?_eq_some.mp hp
        exact found_of_reference hs (Stand.points_iff.mpr ⟨hw, hne⟩) hc hl
      | none =>
        simp only [Stand.shapeBy, hw, referenceTo, hp] at hl
        refine found_of_leaf hs hc (fun pointer hpoints => ?_) (by rw [hl]; rfl) (by rw [hl]; rfl)
        obtain ⟨hway, hne⟩ := Stand.points_iff.mp hpoints
        cases hw.symm.trans hway
        cases hp.symm.trans (pointer?_eq_some.mpr ⟨rfl, hne⟩)
    | object => exact found_of_object hs hw hl hchildren
    | array => exact found_of_array hs hw hl hchildren
    | plain type =>
      have hc : s.children h = [] := by rw [Stand.children, hw]
      have hself := not_points_of_way hw fun _ => Way.noConfusion
      obtain ⟨name, format, hplain⟩ := exists_primitive_shape h s.node type
      simp only [Stand.shapeBy, hw, hplain] at hl
      exact found_of_leaf hs hc hself (by rw [hl]; rfl) (by rw [hl]; rfl)

theorem standAt?_schema {e : Scalar × Value} (he : entries[i]? = some e)
    (hs : schemaStand? e = some s) : standAt? h entries [i] = some s := by
  rw [standAt?, he, Option.bind_some, hs]
  rfl

/-- A reference is at or below the place of its schema. -/
theorem exists_schema (hx : PointsAt h entries x) : ∃ i e s, entries[i]? = some e ∧
    schemaStand? e = some s ∧ [i] <+: x := by
  obtain ⟨t, _, ht, _⟩ := hx
  cases x with
  | nil => cases ht
  | cons i q =>
    obtain ⟨s, hs, _⟩ := Option.bind_eq_some_iff.mp ht
    obtain ⟨e, he, hs⟩ := Option.bind_eq_some_iff.mp hs
    exact ⟨i, e, s, he, hs, ⟨q, rfl⟩⟩

/-- A reference below a schema is inside its declaration. -/
theorem nested_of_schema {e : Scalar × Value} (he : entries[i]? = some e)
    (hs : schemaStand? e = some s) (hx : PointsAt h entries x) (hi : [i] <+: x) :
    Nested h entries [i] x := by
  have hat := standAt?_schema (h := h) he hs
  have ho := outer_of_schemaStand? hs
  obtain ⟨k, c, hc, hk⟩ := exists_child hat hi hx fun pointer hp => hp.1 ho
  have hw : s.way h = .object := by
    rw [Stand.way, ho]
    cases henum : h.find? s.node "enum" with
    | none => rfl
    | some v =>
      rw [Stand.children, Stand.way, ho, henum] at hc
      cases hc
  exact ⟨prefix_owner hi (lt_of_child hk).ne (objectAt_of_way hat hw), hx⟩

theorem not_nested_of_other {e : Scalar × Value} (he : entries[i]? = some e)
    (hs : schemaStand? e = none) : ¬ Nested h entries [i] x := by
  rintro ⟨hi, hx⟩
  obtain ⟨j, e', s, he', hs', hj⟩ := exists_schema hx
  obtain ⟨q, rfl⟩ := hj
  have hij : i = j := by simpa using (hi.trans owner_isPrefix)
  subst hij
  cases he.symm.trans he'
  cases hs.symm.trans hs'

section

variable {ds : List Declaration} (hok : (schemas h limit entries).outcome = .ok ds)

include hok

/-- What is inside the declarations is what is inside the shapes of the schemas. -/
theorem flatMap_inside :
    (ds.flatMap fun d => (Shape.object none (some d)).inside (schemaPath d.name)) =
      entries.flatMap fun e => (schemaStand? e).toList.flatMap fun s =>
        (s.lowered h limit).inside s.site.path := by
  have hvisits := visits_of_schemas hok
  rw [← List.flatMap_assoc, ← List.filterMap_eq_flatMap_toList, filterMap_schemaStand?,
    List.flatMap_map]
  clear hok
  generalize mappings entries = schemas at hvisits ⊢
  induction hvisits with
  | nil => rfl
  | cons ho _ ih =>
    rw [List.flatMap_cons, List.flatMap_cons, ih, name_of_visit ho, Stand.lowered, ho]
    rfl

/-- The references inside the declarations are those of the nodes that are visited. -/
theorem found_of_schemas : Lists (PointsAt h entries) (Before h entries) (RefersAs h entries)
    (ds.flatMap fun d => (Shape.object none (some d)).inside (schemaPath d.name)) := by
  rw [flatMap_inside hok]
  refine (Lists.flatMap (P := fun i => Nested h entries [i]) (fun i e he => ?_) ?_).congr
    fun x => ⟨?_, fun hx => ?_⟩
  · cases hs : schemaStand? e with
    | none => exact .nil fun x => not_nested_of_other he hs
    | some s =>
      have hat := standAt?_schema (h := h) he hs
      rw [Option.toList_some, List.flatMap_singleton]
      exact (found_of_visit s (error?_visit_of_ok hok hat) [i] hat).nested
  · exact fun i j hij x y hx hy => before_iff.mpr (.inl (lt_of_branch (p := []) hij hx.1 hy.1))
  · rintro ⟨_, _, hx⟩
    exact hx.2
  · obtain ⟨i, e, s, he, hs, hi⟩ := exists_schema hx
    exact ⟨i, (List.getElem?_eq_some_iff.mp he).1, nested_of_schema he hs hx hi⟩

/-- The declarations have the names of the schemas that are mappings, in document order. -/
theorem names_of_schemas : ds.map (·.name) = (mappings entries).map (·.1) := by
  rw [← List.forall₂_eq_eq_eq, List.forall₂_map_left_iff, List.forall₂_map_right_iff]
  exact (visits_of_schemas hok).flip.imp fun d schema ho => name_of_visit ho

theorem mem_names_iff {name : String} : name ∈ ds.map (·.name) ↔
    ∃ e ∈ entries, e.1.text? = some name ∧ e.2.mapping?.isSome := by
  rw [names_of_schemas hok, List.mem_map]
  constructor
  · rintro ⟨⟨name, node⟩, hschema, rfl⟩
    obtain ⟨e, he, hschema⟩ := List.mem_filterMap.mp hschema
    obtain ⟨key, hkey, hschema⟩ := Option.bind_eq_some_iff.mp hschema
    obtain ⟨node, hnode, heq⟩ := Option.map_eq_some_iff.mp hschema
    cases heq
    exact ⟨e, he, hkey, by rw [hnode]; rfl⟩
  · rintro ⟨⟨k, v⟩, he, hkey, hnode⟩
    obtain ⟨node, hnode⟩ := Option.isSome_iff_exists.mp hnode
    exact ⟨(name, node), List.mem_filterMap.mpr ⟨(k, v), he, Option.bind_eq_some_iff.mpr
      ⟨name, hkey, Option.map_eq_some_iff.mpr ⟨node, hnode, rfl⟩⟩⟩, rfl⟩

end

/-- A reference to a name that no schema which is a mapping has. -/
def DanglesAt (h : Heap) (entries : Entries) (x : List Nat) : Prop :=
  ∃ s pointer, standAt? h entries x = some s ∧ s.Points h pointer ∧
    ¬ ∃ e ∈ entries, e.1.text? = some (Naming.lastSegment pointer) ∧ e.2.mapping?.isSome

/-- What is reported of the reference at a place: the name that it ends in, and the path that the
node was visited under. -/
def ReportedAt (h : Heap) (entries : Entries) (ds : List Declaration) (x : List Nat)
    (i : Diagnostic) : Prop :=
  ∃ s pointer, standAt? h entries x = some s ∧ s.Points h pointer ∧
    i = (Finding.danglingReference (Naming.lastSegment pointer)
      (Lint.similar? (sortNames (ds.map (·.name))) (Naming.lastSegment pointer))).atPath
        s.site.path ∧
    i.code = "W101" ∧ i.reference = some (Naming.lastSegment pointer) ∧
    i.path = some s.site.path

/-- The dangling references in the declarations are those of the nodes that were visited, one for
each, object by object, and each has the path of its node. -/
theorem dangling_exact {ds : List Declaration}
    (hok : (schemas h limit entries).outcome = .ok ds) :
    Lists (DanglesAt h entries) (Before h entries) (ReportedAt h entries ds)
      (Lint.references ds) := by
  have hdangling : ∀ x reference, RefersAs h entries x reference → (DanglesAt h entries x ↔
      (Lint.dangling? (sortNames (ds.map (·.name))) reference).isSome) := by
    rintro x _ ⟨s, pointer, hs, hp, rfl⟩
    have hdeclared : (sortNames (ds.map (·.name))).contains (Naming.lastSegment pointer) ↔
        ∃ e ∈ entries, e.1.text? = some (Naming.lastSegment pointer) ∧ e.2.mapping?.isSome := by
      rw [List.contains_iff_mem, mem_sortNames, mem_names_iff hok]
    rw [Lint.dangling?]
    split
    · next hname =>
      refine iff_of_false ?_ Bool.false_ne_true
      rintro ⟨t, other, ht, hother, hnot⟩
      cases hs.symm.trans ht
      cases hp.unique hother
      exact hnot (hdeclared.mp hname)
    · next hname =>
      exact iff_of_true ⟨s, pointer, hs, hp, fun h => hname (hdeclared.mpr h)⟩ rfl
  rw [Lint.references_eq]
  refine ((found_of_schemas hok).filterMap hdangling ?_).congr fun x => ?_
  · rintro x _ i ⟨s, pointer, hs, hp, rfl⟩ hi
    obtain ⟨_, hi⟩ := Option.ite_none_left_eq_some.mp hi
    cases hi
    exact ⟨s, pointer, hs, hp, rfl, rfl, rfl, rfl⟩
  · refine and_iff_right_of_imp ?_
    rintro ⟨s, pointer, hs, hp, _⟩
    exact ⟨s, pointer, hs, hp⟩

/-- A schema with a list of references in an object in place, and one that refers to both schemas. -/
def linkHeap : Heap := ⟨#[
  .entries [(.str "type", .str "object"), (.str "properties", .map 1)],
  .entries [(.str "inner", .map 2)],
  .entries [(.str "type", .str "object"), (.str "properties", .map 3)],
  .entries [(.str "links", .map 4)],
  .entries [(.str "type", .str "array"), (.str "items", .map 5)],
  .entries [(.str "$ref", .str "#/components/schemas/Gone")],
  .entries [(.str "properties", .map 7)],
  .entries [(.str "back", .map 8)],
  .entries [(.str "$ref", .str "#/components/schemas/A")]]⟩

example : ((schemas linkHeap 64 [(.str "A", .map 0)]).outcome.toOption.map fun ds =>
    (Lint.references ds).map fun i => (i.reference, i.path)) = some [(some "Gone",
      some "components.schemas.A.properties.inner.properties.links.items")] := by
  decide +kernel

theorem link_dangling : ∃ ds,
    (schemas linkHeap 64 [(.str "A", .map 0), (.str "B", .map 6)]).outcome = .ok ds ∧
    Lists (DanglesAt linkHeap [(.str "A", .map 0), (.str "B", .map 6)])
      (Before linkHeap [(.str "A", .map 0), (.str "B", .map 6)])
      (ReportedAt linkHeap [(.str "A", .map 0), (.str "B", .map 6)] ds) (Lint.references ds) := by
  have hnone : (schemas linkHeap 64 [(.str "A", .map 0), (.str "B", .map 6)]).error? = none := by
    decide +kernel
  obtain ⟨ds, hok⟩ := Traced.error?_eq_none.mp hnone
  exact ⟨ds, hok, dangling_exact hok⟩

end Lowering
end SchemaCompiler
