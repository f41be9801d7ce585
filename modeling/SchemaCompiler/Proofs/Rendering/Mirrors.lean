import SchemaCompiler.Proofs.Rendering.FormatComments
import SchemaCompiler.Proofs.Rendering.Reference

/-!
Validators and static types side by side. Both put one text into the arrays of a shape, and each of the two
finds out for itself where this text comes from. They always find the same.
-/
namespace SchemaCompiler

open Text (PatternError fill)

variable {r : Registry} {s : Shape} {name format : String}

/-- Where the text inside all arrays of a shape comes from. -/
inductive Origin where
  | binding (b : Binding)
  | scalar (name format : String)
  | declaration (name : String)
  | enum (members : List String)
  | record
  | unknown

namespace Origin

/-- Texts as literals with bars between them, in their order. No text at all is never accepted. -/
def literalUnion : List String → String
  | [] => "never"
  | [m] => Literal.quote m
  | m :: next :: rest => Literal.quote m ++ " | " ++ literalUnion (next :: rest)

/-- The validator of a leaf. A text whose format has no binding shows it in a comment. -/
def validator (t : Target) : Origin → Except PatternError String
  | .binding b => .ok b.validator
  | .scalar name format =>
    if name != "string" || format == "" then .ok (t.primitives.validator name)
    else fill t.unknownFormatPattern
      [("expr", t.primitives.validator name), ("format", Literal.inComment format)]
  | .declaration name => .ok (name ++ t.symbolSuffix)
  | .enum members => do
    let literals ← members.mapM fun m => fill t.memberPattern [("literal", Literal.quote m)]
    fill t.enumPattern [("members", ", ".intercalate literals)]
  | .record => .ok t.record
  | .unknown => .ok t.primitives.unknown

/-- The static type of a leaf. -/
def staticType : Origin → String
  | .binding b => b.staticType
  | .scalar name _ => primitiveType name
  | .declaration name => name
  | .enum members => literalUnion members
  | .record => "Record<string, unknown>"
  | .unknown => "unknown"

theorem memberUnion_eq (members : List String) : memberUnion members = literalUnion members := by
  induction members with
  | nil => rfl
  | cons m rest ih =>
    cases rest with
    | nil => rfl
    | cons next rest =>
      have hrest : memberUnion (next :: rest) = literalUnion (next :: rest) := ih
      rw [literalUnion, ← hrest]
      exact String.intercalate_cons_cons

end Origin

namespace Registry

/-- Where the validator of a primitive comes from: known scalars first, and of these texts by their
format. -/
def validatorOrigin (r : Registry) (name format : String) : Origin :=
  if !Shape.scalarNames.contains name then .unknown
  else if name != "string" || format == "" then .scalar name format
  else
    match r.get? format with
    | some b => .binding b
    | none => .scalar name format

/-- Where the static type of a primitive comes from: bindings first, then the table of names, and unknown
for names that it lacks. -/
def typeOrigin (r : Registry) (name format : String) : Origin :=
  match if name == "string" then r.get? format else none with
  | some b => .binding b
  | none => if primitiveType name == "unknown" then .unknown else .scalar name format

end Registry

namespace Shape

/-- The number of arrays around the leaf of a shape. -/
def depth : Shape → Nat
  | .array element => element.depth + 1
  | _ => 0

/-- Where the text of a leaf comes from, given what becomes of primitives. -/
def origin (primitive : String → String → Origin) : Shape → Origin
  | .primitive name format => primitive name format
  | .array element => element.origin primitive
  | .reference target => .declaration target
  | .enum _ _ members => .enum members
  | .object (some target) _ => if target == "" then .record else .declaration target
  | .object none _ => .record

def validatorOrigin (r : Registry) (s : Shape) : Origin := s.origin r.validatorOrigin

def typeOrigin (r : Registry) (s : Shape) : Origin := s.origin r.typeOrigin

/-- A static type inside of a number of arrays. -/
def typeInArrays : Nat → String → String
  | 0, type => type
  | depth + 1, type => s!"Array<{typeInArrays depth type}>"

theorem inArrays_leaf : ∀ s : Shape, s.leaf.inArrays s.depth = s
  | .array element => congrArg Shape.array (inArrays_leaf element)
  | .primitive _ _ | .reference _ | .enum _ _ _ | .object _ _ => rfl

theorem origin_leaf (primitive : String → String → Origin) :
    ∀ s : Shape, s.leaf.origin primitive = s.origin primitive
  | .array element => origin_leaf primitive element
  | .primitive _ _ | .reference _ | .enum _ _ _ | .object _ _ => rfl

theorem leaf_ne_array {element : Shape} : ∀ s : Shape, s.leaf ≠ .array element
  | .array inner => leaf_ne_array inner
  | .primitive _ _ | .reference _ | .enum _ _ _ | .object _ _ => Shape.noConfusion

end Shape

/-- The names in the table of static types are those of the scalars. -/
theorem primitiveType_eq_unknown :
    (primitiveType name == "unknown") = !Shape.scalarNames.contains name := by
  by_cases hstring : name = "string"
  · subst hstring; decide
  by_cases hnumber : name = "number"
  · subst hnumber; decide
  by_cases hinteger : name = "integer"
  · subst hinteger; decide
  by_cases hboolean : name = "boolean"
  · subst hboolean; decide
  simp [primitiveType, Shape.scalarNames, hstring, hnumber, hinteger, hboolean]

namespace Registry

/-- Both passes find the same origin, though they ask for names, formats and bindings in different
orders. -/
theorem validatorOrigin_eq_typeOrigin (r : Registry) (name format : String) :
    r.validatorOrigin name format = r.typeOrigin name format := by
  rw [validatorOrigin, typeOrigin, primitiveType_eq_unknown]
  rcases plain_or_formatted name format with hplain | ⟨rfl, hne⟩
  · have hnone : (if name == "string" then r.get? format else none) = none := by
      rcases hplain with hname | rfl
      · exact if_neg (mt beq_iff_eq.mp hname)
      · rw [get?_empty, ite_self]
    have hread : (name != "string" || format == "") = true := by simpa using hplain
    rw [hnone, if_pos hread]
  · have hread : ("string" != "string" || format == "") = false := by simpa using hne
    rw [hread, if_pos (beq_self_eq_true _)]
    cases r.get? format <;> rfl

theorem primitive_eq_origin (r : Registry) (name format : String) :
    r.primitive name format = (r.validatorOrigin name format).validator r.target := by
  rw [validatorOrigin]
  cases hname : Shape.scalarNames.contains name with
  | false =>
    have hother : name ≠ "string" := by
      rintro rfl
      cases hname
    rw [primitive_plain (.inl hother), Lowering.validator_of_not_scalar hname]
    rfl
  | true =>
    rcases plain_or_formatted name format with hplain | ⟨rfl, hne⟩
    · have hread : (name != "string" || format == "") = true := by simpa using hplain
      rw [primitive_plain hplain, hread]
      simp [Origin.validator, hread]
    · have hread : ("string" != "string" || format == "") = false := by simpa using hne
      rw [primitive_formatted hne, hread]
      cases r.get? format with
      | some b => rfl
      | none => exact (if_neg (ne_true_of_eq_false hread)).symm

theorem typeOrigin_staticType (r : Registry) (name format : String) :
    (Shape.primitive name format).staticType r = (r.typeOrigin name format).staticType := by
  rw [Shape.staticType, typeOrigin]
  cases (if name == "string" then r.get? format else none) with
  | some b => rfl
  | none =>
    by_cases hname : (primitiveType name == "unknown") = true
    · rw [if_pos hname]
      exact beq_iff_eq.mp hname
    · rw [if_neg hname]
      rfl

end Registry

namespace Shape

theorem validator_leaf_eq (r : Registry) (s : Shape) :
    s.leaf.validator r = (s.validatorOrigin r).validator r.target := by
  rw [validatorOrigin, ← origin_leaf]
  cases hleaf : s.leaf with
  | primitive name format => exact r.primitive_eq_origin name format
  | array element => exact absurd hleaf (leaf_ne_array s)
  | reference target => rfl
  | enum name underlying members => rfl
  | object target nested =>
    cases target with
    | none => rfl
    | some target =>
      rw [validator, origin]
      split <;> rfl

theorem staticType_leaf_eq (r : Registry) (s : Shape) :
    s.leaf.staticType r = (s.typeOrigin r).staticType := by
  rw [typeOrigin, ← origin_leaf]
  cases hleaf : s.leaf with
  | primitive name format => exact r.typeOrigin_staticType name format
  | array element => exact absurd hleaf (leaf_ne_array s)
  | reference target => rfl
  | enum name underlying members => exact Origin.memberUnion_eq members
  | object target nested =>
    cases target with
    | none => rfl
    | some target =>
      rw [staticType, origin]
      split <;> rfl

theorem staticType_inArrays (r : Registry) (s : Shape) (depth : Nat) :
    (s.inArrays depth).staticType r = typeInArrays depth (s.staticType r) := by
  induction depth with
  | zero => rfl
  | succ depth ih => rw [inArrays, staticType, ih, typeInArrays]

theorem validatorOrigin_eq_typeOrigin (r : Registry) (s : Shape) :
    s.validatorOrigin r = s.typeOrigin r := by
  have hprimitive : r.validatorOrigin = r.typeOrigin := by
    funext name format
    exact r.validatorOrigin_eq_typeOrigin name format
  rw [validatorOrigin, typeOrigin, hprimitive]

/-- The validator and the static type of a shape as two texts of one skeleton: the same arrays around a leaf
whose texts come from the same place. -/
structure Mirrored (r : Registry) (s : Shape) : Prop where
  validator : s.validator r =
    (s.validatorOrigin r).validator r.target >>= r.target.inArrays s.depth
  staticType : s.staticType r = typeInArrays s.depth (s.typeOrigin r).staticType
  binding : ∀ b, s.validatorOrigin r = .binding b ↔ s.typeOrigin r = .binding b
  declaration : ∀ name, s.validatorOrigin r = .declaration name ↔ s.typeOrigin r = .declaration name
  enum : ∀ members, s.validatorOrigin r = .enum members ↔ s.typeOrigin r = .enum members
  record : s.validatorOrigin r = .record ↔ s.typeOrigin r = .record
  unknown : s.validatorOrigin r = .unknown ↔ s.typeOrigin r = .unknown

theorem mirrored (r : Registry) (s : Shape) : Mirrored r s := by
  have hsame := s.validatorOrigin_eq_typeOrigin r
  refine ⟨?_, ?_, fun b => by rw [hsame], fun name => by rw [hsame], fun members => by rw [hsame],
    by rw [hsame], by rw [hsame]⟩
  · have harrays := s.leaf.validator_inArrays r s.depth
    rwa [inArrays_leaf, validator_leaf_eq] at harrays
  · have harrays := s.leaf.staticType_inArrays r s.depth
    rwa [inArrays_leaf, staticType_leaf_eq] at harrays

end Shape

/-- A static type with null is longer than the one without. -/
theorem Field.staticType_eq_iff (r : Registry) (f : Field) :
    f.staticType r = f.shape.staticType r ++ " | null" ↔ f.nullable = true := by
  rw [staticType]
  cases f.nullable with
  | true => simp
  | false =>
    refine iff_of_false (fun heq => ?_) Bool.false_ne_true
    have hlength := congrArg String.length heq
    simp at hlength

/-- For all targets and bindings, the validator and the static type of a shape mirror each other, and the
validator of a field has the pattern for null around it exactly when its static type adds null. -/
theorem types_mirror_validators (r : Registry) :
    (∀ s : Shape, s.Mirrored r) ∧
    ∀ f : Field,
      f.validator r = f.shape.validator r >>= r.target.modified
        (decide (f.staticType r = f.shape.staticType r ++ " | null")) f.required ∧
      (f.staticType r = f.shape.staticType r ++ " | null" ∨
        f.staticType r = f.shape.staticType r) := by
  refine ⟨Shape.mirrored r, fun f => ?_⟩
  have hnull := f.staticType_eq_iff r
  rw [Field.validator_eq]
  cases hnullable : f.nullable with
  | true =>
    have hadds := hnull.mpr hnullable
    exact ⟨by rw [decide_eq_true hadds], .inl hadds⟩
  | false =>
    have hlacks : ¬ f.staticType r = f.shape.staticType r ++ " | null" := by
      rw [hnull, hnullable]
      exact Bool.false_ne_true
    refine ⟨by rw [decide_eq_false hlacks], .inr ?_⟩
    rw [Field.staticType, hnullable, if_neg Bool.false_ne_true]

end SchemaCompiler
