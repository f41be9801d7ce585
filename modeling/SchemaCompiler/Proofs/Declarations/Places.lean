import Mathlib.Data.List.Perm.Basic
import SchemaCompiler.Lint
import SchemaCompiler.Proofs.Lowering.Places

/-!
Places in declarations. A shape goes on to the items of an array and to the fields of an object given in
place, and a place is the way to a shape from the declarations. Going through the declarations object by
object meets the shapes of all places, each once.
-/
namespace SchemaCompiler

/-- A list of what stands at the places, once for each place, in the order `R` of the places. -/
def Gathers (at? : List Nat → Option α) (R : List Nat → List Nat → Prop) (values : List α) : Prop :=
  Lowering.Lists (fun p => (at? p).isSome) R (fun p v => at? p = some v) values

namespace Gathers

variable {α β : Type} {at? : List Nat → Option α} {R : List Nat → List Nat → Prop} {xs ys : List α}

/-- In another order the values are still one for each place. -/
theorem perm (hx : Gathers at? R xs) (hR : ∀ p q, R p q → p ≠ q) (hp : ys.Perm xs) :
    Gathers at? (· ≠ ·) ys := by
  obtain ⟨places, hplaces, hP, hV⟩ := hx
  obtain ⟨moved, hmoved, hperm⟩ := List.perm_comp_forall₂ hp hV.flip
  refine ⟨moved, ?_, fun p => hperm.mem_iff.trans (hP p), hmoved.flip⟩
  exact (hperm.pairwise_iff Ne.symm).mpr (hplaces.imp (hR _ _))

/-- Leaving out values leaves out their places. -/
theorem filterMap (hx : Gathers at? R xs) (f : α → Option β) :
    Gathers (fun p => (at? p).bind f) R (xs.filterMap f) := by
  refine (Lowering.Lists.filterMap hx (Q := fun p => ((at? p).bind f).isSome) ?_ ?_).congr ?_
  · intro p v hv
    rw [hv, Option.bind_some]
  · intro p v w hv hw
    exact Option.bind_eq_some_iff.mpr ⟨v, hv, hw⟩
  · intro p
    refine and_iff_right_of_imp fun hq => ?_
    obtain ⟨v, hv, _⟩ := Option.bind_eq_some_iff.mp (Option.eq_some_of_isSome hq)
    rw [hv]
    rfl

/-- The values of each member, member by member. -/
theorem flatMap {at? : β → List Nat → Option α} {members : List β} {f : β → List α}
    (hcons : ∀ i p q, R p q → R (i :: p) (i :: q))
    (hlt : ∀ i j p q, i < j → R (i :: p) (j :: q))
    (hf : ∀ m ∈ members, Gathers (at? m) R (f m)) :
    Gathers (First.among at? members) R (members.flatMap f) := by
  have hmember : ∀ i m, members[i]? = some m →
      Lowering.Lists (fun p => p.head? = some i ∧ (First.among at? members p).isSome) R
        (fun p v => First.among at? members p = some v) (f m) := by
    intro i m hm
    have hat : ∀ q, First.among at? members (i :: q) = at? m q := fun q => by
      rw [First.among, hm, Option.bind_some]
    obtain ⟨places, hR, hP, hV⟩ := hf m (List.mem_of_getElem? hm)
    refine ⟨places.map (i :: ·), List.pairwise_map.mpr (hR.imp (hcons i _ _)), fun p => ?_, ?_⟩
    · rw [List.mem_map]
      constructor
      · rintro ⟨q, hq, rfl⟩
        exact ⟨rfl, by rw [hat]; exact (hP q).mp hq⟩
      · rintro ⟨hi, hp⟩
        obtain ⟨q, rfl⟩ := List.head?_eq_some_iff.mp hi
        rw [hat] at hp
        exact ⟨q, (hP q).mpr hp, rfl⟩
    · exact List.forall₂_map_left_iff.mpr (hV.imp fun q v hv => (hat q).trans hv)
  refine (Lowering.Lists.flatMap hmember ?_).congr fun p => ⟨?_, fun hp => ?_⟩
  · rintro i j hij p q ⟨hi, _⟩ ⟨hj, _⟩
    obtain ⟨p, rfl⟩ := List.head?_eq_some_iff.mp hi
    obtain ⟨q, rfl⟩ := List.head?_eq_some_iff.mp hj
    exact hlt i j p q hij
  · rintro ⟨i, _, _, hp⟩
    exact hp
  · cases p with
    | nil => cases hp
    | cons i q =>
      obtain ⟨m, hm, _⟩ := Option.bind_eq_some_iff.mp (Option.eq_some_of_isSome hp)
      exact ⟨i, (List.getElem?_eq_some_iff.mp hm).1, rfl, hp⟩

/-- The members in the order of the places. -/
theorem flatMap_lt {at? : β → List Nat → Option α} {members : List β} {f : β → List α}
    (hf : ∀ m ∈ members, Gathers (at? m) (· < ·) (f m)) :
    Gathers (First.among at? members) (· < ·) (members.flatMap f) :=
  flatMap (fun _ _ _ hlt => List.cons_lt_cons_iff.mpr (.inr ⟨rfl, hlt⟩))
    (fun _ _ _ _ hij => List.cons_lt_cons_iff.mpr (.inl hij)) hf

theorem flatMap_ne {at? : β → List Nat → Option α} {members : List β} {f : β → List α}
    (hf : ∀ m ∈ members, Gathers (at? m) (· ≠ ·) (f m)) :
    Gathers (First.among at? members) (· ≠ ·) (members.flatMap f) := by
  refine flatMap (fun i p q hne => ?_) (fun i j p q hij => ?_) hf
  · simpa using hne
  · simp [hij.ne]

end Gathers

theorem objectsOfFields_eq (owner : String) (fields : List Field) :
    objectsOfFields owner fields = fields.flatMap fun f => f.shape.objects (f.path owner) := by
  induction fields with
  | nil => rfl
  | cons f rest ih =>
    obtain ⟨name, shape, _, _, _⟩ := f
    rw [objectsOfFields, ih, List.flatMap_cons]
    rfl

/-- A declaration comes before the objects in its fields. -/
theorem Declaration.objects_eq (d : Declaration) (path : String) :
    d.objects path = (d, path) :: d.fields.flatMap fun f => f.shape.objects (f.path path) := by
  obtain ⟨name, kind, description, fields, required, members⟩ := d
  rw [objects, objectsOfFields_eq]

namespace Shape

/-- The shapes right below a shape, with their paths. -/
def children (path : String) : Shape → List (Shape × String)
  | .array element => [(element, s!"{path}.items")]
  | .object _ (some d) => d.fields.map fun f => (f.shape, f.path path)
  | _ => []

theorem sizeOf_lt_of_mem_children {s : Shape} {path : String} {c : Shape × String}
    (hc : c ∈ s.children path) : sizeOf c.1 < sizeOf s := by
  unfold children at hc
  split at hc
  · obtain rfl := List.mem_singleton.mp hc
    simp
  · next d =>
    obtain ⟨⟨name, shape, _, _, _⟩, hf, rfl⟩ := List.mem_map.mp hc
    have hlt := List.sizeOf_lt_of_mem hf
    obtain ⟨_, _, _, fields, _, _⟩ := d
    simp at hlt ⊢
    omega
  · cases hc

/-- What holds of a shape when it holds of the shapes right below it holds of every shape. -/
theorem children_induction {P : Shape → Prop}
    (step : ∀ s : Shape, (∀ path, ∀ c ∈ s.children path, P c.1) → P s) (s : Shape) : P s :=
  step s fun _ c _ => children_induction step c.1
termination_by sizeOf s
decreasing_by exact sizeOf_lt_of_mem_children ‹_›

/-- The shape at a place, with its path. -/
def at? (s : Shape) (path : String) : List Nat → Option (Shape × String)
  | [] => some (s, path)
  | i :: q => (s.children path)[i]?.bind fun c => c.1.at? c.2 q

/-- A shape and all shapes below it in depth-first order, with their paths. -/
def parts (s : Shape) (path : String) : List (Shape × String) :=
  (s, path) :: (s.children path).attach.flatMap fun c => c.1.1.parts c.1.2
termination_by sizeOf s
decreasing_by exact sizeOf_lt_of_mem_children c.2

theorem parts_eq (s : Shape) (path : String) :
    s.parts path = (s, path) :: (s.children path).flatMap fun c => c.1.parts c.2 := by
  conv_rhs => rw [← List.attach_map_subtype_val (s.children path), List.flatMap_map]
  rw [parts]

/-- Going through a shape meets the shape of each place once, in the order of the places. -/
theorem gathers_parts (s : Shape) (path : String) :
    Gathers (s.at? path) (· < ·) (s.parts path) := by
  induction s using children_induction generalizing path with
  | step s ih =>
    have hbelow : Gathers (First.among (fun c => c.1.at? c.2) (s.children path)) (· < ·)
        ((s.children path).flatMap fun c => c.1.parts c.2) :=
      .flatMap_lt fun c hc => ih path c hc c.2
    obtain ⟨places, hR, hP, hV⟩ := hbelow
    rw [parts_eq]
    refine ⟨[] :: places, List.pairwise_cons.mpr ⟨fun p hp => ?_, hR⟩, fun p => ?_, .cons rfl ?_⟩
    · cases p with
      | nil => cases (hP []).mp hp
      | cons i q => exact List.nil_lt_cons i q
    · cases p with
      | nil => simp [at?]
      | cons i q =>
        rw [List.mem_cons, or_iff_right (List.cons_ne_nil i q)]
        exact hP (i :: q)
    · refine List.Forall₂.imp (fun p part hp => ?_) hV
      cases p with
      | nil => cases hp
      | cons i q => exact hp

/-- The layers of the fields of the objects in a shape, with their paths. -/
def nested (s : Shape) (path : String) : List (Shape × String) :=
  (s.objects path).flatMap fun (owner, path) =>
    owner.fields.flatMap fun f => f.shape.layers (f.path path)

theorem nested_object (target : Option String) (d : Declaration) (path : String) :
    (object target (some d)).nested path =
      (d.fields.flatMap fun f => f.shape.layers (f.path path)) ++
        d.fields.flatMap fun f => f.shape.nested (f.path path) := by
  rw [nested, objects, Declaration.objects_eq, List.flatMap_cons, List.flatMap_assoc]
  rfl

/-- The layers of a shape and those of the objects in it are all its parts. -/
theorem layers_append_nested_perm (s : Shape) (path : String) :
    (s.layers path ++ s.nested path).Perm (s.parts path) := by
  induction s using children_induction generalizing path with
  | step s ih =>
    rw [parts_eq]
    cases s with
    | array element =>
      rw [children, List.flatMap_singleton]
      exact (ih path _ (List.mem_singleton_self _) _).cons _
    | object target given =>
      cases given with
      | none => exact .refl _
      | some d =>
        rw [nested_object, children, List.flatMap_map]
        refine ((List.flatMap_append_perm ..).trans (.flatMap_left _ fun f hf => ?_)).cons _
        exact ih path _ (List.mem_map_of_mem hf) _
    | primitive _ _ | reference _ | enum _ _ _ => exact .refl _

/-- The object that is given in place of a reference to it. -/
def given? : Shape → Option Declaration
  | .object _ (some d) => some d
  | _ => none

/-- The objects in a shape are those among its parts, in order. -/
theorem objects_eq_filterMap (s : Shape) (path : String) :
    s.objects path = (s.parts path).filterMap fun (part, path) => part.given?.map (·, path) := by
  induction s using children_induction generalizing path with
  | step s ih =>
    rw [parts_eq]
    cases s with
    | array element =>
      rw [children, List.flatMap_singleton, objects, ih path _ (List.mem_singleton_self _)]
      rfl
    | object target given =>
      cases given with
      | none => rfl
      | some d =>
        rw [objects, Declaration.objects_eq, children, List.flatMap_map, List.filterMap_cons,
          List.filterMap_flatMap]
        refine congrArg ((d, path) :: ·) (List.flatMap_congr fun f hf => ?_)
        exact ih path _ (List.mem_map_of_mem hf) _
    | primitive _ _ | reference _ | enum _ _ _ => rfl

end Shape

/-- A declaration as a shape that is given in place. -/
def Declaration.whole (d : Declaration) : Shape := .object none (some d)

/-- The shape at a place in some declarations, with its path. The first step of a place chooses the
declaration. -/
def shapeAt? (ds : List Declaration) : List Nat → Option (Shape × String) :=
  First.among (fun d => d.whole.at? (schemaPath d.name)) ds

end SchemaCompiler
