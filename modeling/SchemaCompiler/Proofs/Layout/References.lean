import SchemaCompiler.Lint
import SchemaCompiler.Proofs.Order
import SchemaCompiler.Proofs.Rendering.Patterns

/-!
References between declarations. The check for dangling references, the list of the names that a
module imports and the expressions of its fields agree on what a declaration refers to.
-/
namespace SchemaCompiler

open Text (bind_eq_ok_iff infix_of_fill)

/-- A shape refers to a name that it references itself or, an array, in its elements. What is in an
object that is given in place does not count. -/
inductive Shape.RefersTo (name : String) : Shape → Prop
  | reference : RefersTo name (.reference name)
  | object {nested : Option Declaration} (h : name ≠ "") : RefersTo name (.object (some name) nested)
  | element {element : Shape} (h : RefersTo name element) : RefersTo name (.array element)

def Declaration.RefersTo (d : Declaration) (name : String) : Prop :=
  ∃ f ∈ d.fields, f.shape.RefersTo name

variable {r : Registry} {d : Declaration} {ds : List Declaration} {s : Shape} {name : String}

theorem Shape.mem_references : ∀ {s : Shape}, name ∈ s.references ↔ s.RefersTo name
  | .primitive _ _ => ⟨nofun, nofun⟩
  | .array element => by
    rw [Shape.references, Shape.mem_references]
    exact ⟨.element, fun h => by cases h; assumption⟩
  | .reference target => by
    rw [Shape.references, List.mem_singleton]
    exact ⟨fun h => h ▸ .reference, fun h => by cases h; rfl⟩
  | .enum _ _ _ => ⟨nofun, nofun⟩
  | .object none _ => ⟨nofun, nofun⟩
  | .object (some target) _ => by
    rw [Shape.references]
    split
    · next ht => exact ⟨nofun, fun h => by cases h; exact absurd (beq_iff_eq.mp ht) ‹_›⟩
    · next ht =>
      rw [List.mem_singleton]
      constructor
      · rintro rfl
        exact .object (by simpa using ht)
      · rintro (_ | _)
        rfl

theorem Declaration.mem_referencedNames :
    name ∈ d.referencedNames ↔ name ≠ d.name ∧ d.RefersTo name := by
  simp only [Declaration.referencedNames, mem_sortNames, List.mem_filter, List.mem_flatMap,
    Shape.mem_references, bne_iff_ne, Declaration.RefersTo]
  exact and_comm

/-- One of the layers of a shape has the name that the shape refers to as its target. -/
theorem Shape.RefersTo.exists_layer (h : s.RefersTo name) (path : String) :
    ∃ layer ∈ s.layers path, Lint.target? layer.1 = some name := by
  induction h generalizing path with
  | reference => exact ⟨_, List.mem_cons_self, rfl⟩
  | object hne => exact ⟨_, List.mem_cons_self, by simp [Lint.target?, hne]⟩
  | element _ ih =>
    obtain ⟨layer, hlayer, htarget⟩ := ih s!"{path}.items"
    exact ⟨layer, List.mem_cons_of_mem _ hlayer, htarget⟩

theorem mem_objects (d : Declaration) (path : String) : (d, path) ∈ d.objects path := by
  cases d
  exact List.mem_cons_self

/-- The names that the shapes of some declarations have as targets. -/
def Lint.targets (ds : List Declaration) : List String :=
  (ds.flatMap Lint.shapes).filterMap fun layer => Lint.target? layer.1

theorem Lint.references_eq_nil_iff :
    Lint.references ds = [] ↔ ∀ target ∈ Lint.targets ds, target ∈ ds.map (·.name) := by
  simp only [Lint.references, List.filterMap_eq_nil_iff, Lint.targets, List.forall_mem_filterMap]
  refine forall₂_congr fun layer _ => ?_
  cases Lint.target? layer.1 with
  | none => simp
  | some target =>
    simp only [List.contains_iff_mem, mem_sortNames, Option.some.injEq, forall_eq']
    split <;> simp_all

/-- Where no reference is dangling, declarations refer to declared names only. -/
theorem declared_of_references (h : Lint.references ds = []) (hd : d ∈ ds)
    (hname : d.RefersTo name) : ∃ e ∈ ds, e.name = name := by
  obtain ⟨f, hf, hname⟩ := hname
  obtain ⟨layer, hlayer, htarget⟩ := hname.exists_layer (f.path (schemaPath d.name))
  refine List.mem_map.mp (Lint.references_eq_nil_iff.mp h name ?_)
  refine List.mem_filterMap.mpr ⟨layer, ?_, htarget⟩
  exact List.mem_flatMap.mpr ⟨d, hd, List.mem_flatMap.mpr ⟨_, mem_objects d _,
    List.mem_flatMap.mpr ⟨f, hf, hlayer⟩⟩⟩

/-- The patterns in which an expression is wrapped mention it. -/
structure Target.Wraps (t : Target) : Prop where
  array : Text.mentions "element" t.arrayPattern
  nullable : Text.mentions "expr" t.nullablePattern
  optional : Text.mentions "expr" t.optionalPattern

theorem Target.wraps_of_mem_all {t : Target} (ht : t ∈ Target.all) : t.Wraps := by
  rcases List.mem_cons.mp ht with rfl | ht
  · constructor <;> decide +kernel
  · rw [List.mem_singleton.mp ht]
    constructor <;> decide +kernel

/-- The validator of a shape has the symbol of each name in it that the shape refers to. -/
theorem Shape.RefersTo.infix_validator (ht : r.target ∈ Target.all) (h : s.RefersTo name)
    {e : String} (he : s.validator r = .ok e) : (r.target.symbol name).toList <:+: e.toList := by
  induction h generalizing e with
  | reference =>
    cases he
    exact List.infix_rfl
  | object hne =>
    rw [Shape.validator, if_neg (by simpa using hne)] at he
    cases he
    exact List.infix_rfl
  | element _ ih =>
    rw [Shape.validator] at he
    obtain ⟨inner, hinner, he⟩ := bind_eq_ok_iff.mp he
    exact (ih hinner).trans (infix_of_fill (Target.isPlain_of_mem_all ht).array
      (Target.wraps_of_mem_all ht).array rfl he)

theorem Target.infix_modified {t : Target} (ht : t ∈ Target.all) {nullable required : Bool}
    {plain e : String} (h : t.modified nullable required plain = .ok e) :
    plain.toList <:+: e.toList := by
  have hplain := Target.isPlain_of_mem_all ht
  have hwraps := Target.wraps_of_mem_all ht
  obtain ⟨inner, hinner, h⟩ := bind_eq_ok_iff.mp h
  have hnullable : plain.toList <:+: inner.toList := by
    split at hinner
    · exact infix_of_fill hplain.nullable hwraps.nullable rfl hinner
    · cases hinner
      exact List.infix_rfl
  refine hnullable.trans ?_
  split at h
  · cases h
    exact List.infix_rfl
  · exact infix_of_fill hplain.optional hwraps.optional rfl h

theorem Field.infix_validator (ht : r.target ∈ Target.all) {f : Field}
    (h : f.shape.RefersTo name) {e : String} (he : f.validator r = .ok e) :
    (r.target.symbol name).toList <:+: e.toList := by
  rw [Field.validator_eq] at he
  obtain ⟨plain, hplain, he⟩ := bind_eq_ok_iff.mp he
  exact (h.infix_validator ht hplain).trans (Target.infix_modified ht he)

end SchemaCompiler
