import SchemaCompiler.Proofs.Rendering.Settings

/-!
What rendering reads of the patterns of a target. Each pattern has a role, and the texts of a declaration
depend on the patterns in the roles that its fields, its kind and the settings call for.
-/
namespace SchemaCompiler

/-- What a pattern of a target is for. -/
inductive Role where
  | array
  | enum
  | member
  | nullable
  | optional
  | unknownFormat
  | staticType
  | partialVariant
  | validate
  | guard
deriving DecidableEq

namespace Target

def pattern (t : Target) : Role → String
  | .array => t.arrayPattern
  | .enum => t.enumPattern
  | .member => t.memberPattern
  | .nullable => t.nullablePattern
  | .optional => t.optionalPattern
  | .unknownFormat => t.unknownFormatPattern
  | .staticType => t.staticTypePattern
  | .partialVariant => t.partialPattern
  | .validate => t.validatePattern
  | .guard => t.guardPattern

/-- A target with other patterns. -/
def withPatterns (t : Target) (patterns : Role → String) : Target :=
  { t with
    arrayPattern := patterns .array
    enumPattern := patterns .enum
    memberPattern := patterns .member
    nullablePattern := patterns .nullable
    optionalPattern := patterns .optional
    unknownFormatPattern := patterns .unknownFormat
    staticTypePattern := patterns .staticType
    partialPattern := patterns .partialVariant
    validatePattern := patterns .validate
    guardPattern := patterns .guard }

end Target

/-- A registry whose target has other patterns. -/
def Registry.withPatterns (r : Registry) (patterns : Role → String) : Registry :=
  { r with target := r.target.withPatterns patterns }

/-- The roles in the expression for an enum. Without members nothing is made of the pattern of one. -/
def memberRoles (members : List String) : List Role :=
  .enum :: if members.isEmpty then [] else [.member]

def Shape.roles (r : Registry) : Shape → List Role
  | .primitive name format =>
    if name == "string" && format != "" && (r.get? format).isNone then [.unknownFormat] else []
  | .array element => .array :: element.roles r
  | .enum _ _ members => memberRoles members
  | .reference _ | .object _ _ => []

def Field.roles (r : Registry) (f : Field) : List Role :=
  f.shape.roles r ++ (if f.nullable then [.nullable] else []) ++
    if f.required then [] else [.optional]

/-- The roles in the texts of a declaration apart from its fields. -/
def Declaration.ownRoles (r : Registry) (d : Declaration) : List Role :=
  (if d.isEnum then memberRoles d.members else []) ++ [.staticType] ++
    (if r.generation.partials && !d.isEnum then [.partialVariant] else []) ++
    if r.generation.helpers then [.validate, .guard] else []

/-- The roles of all patterns that a declaration is rendered with. -/
def Declaration.roles (r : Registry) (d : Declaration) : List Role :=
  d.fields.flatMap (·.roles r) ++ d.ownRoles r

variable {r : Registry} {t : Target} {patterns : Role → String} {d : Declaration}

theorem Target.enumExpression_withPatterns {members : List String}
    (h : ∀ role ∈ memberRoles members, patterns role = t.pattern role) :
    (t.withPatterns patterns).enumExpression members = t.enumExpression members := by
  have henum : patterns .enum = t.enumPattern := h .enum List.mem_cons_self
  have hmember (m : String) (hm : m ∈ members) : patterns .member = t.memberPattern := by
    apply h .member
    cases members with
    | nil => cases hm
    | cons => simp [memberRoles]
  have hliterals : members.mapM (fun m => Text.fill (t.withPatterns patterns).memberPattern
      [("literal", Literal.quote m)]) =
        members.mapM fun m => Text.fill t.memberPattern [("literal", Literal.quote m)] := by
    refine Text.mapM_congr fun m hm => ?_
    rw [← hmember m hm]
    rfl
  rw [enumExpression, enumExpression, hliterals, ← henum]
  rfl

theorem Registry.primitive_withPatterns {name format : String}
    (h : ∀ role ∈ (Shape.primitive name format).roles r, patterns role = r.target.pattern role) :
    (r.withPatterns patterns).primitive name format = r.primitive name format := by
  rcases plain_or_formatted name format with hplain | ⟨rfl, hne⟩
  · rw [primitive_plain hplain, primitive_plain hplain]
    rfl
  · have hget : (r.withPatterns patterns).get? format = r.get? format := rfl
    rw [primitive_formatted hne, primitive_formatted hne, hget]
    cases hb : r.get? format with
    | some b => rfl
    | none =>
      have hformat : patterns .unknownFormat = r.target.unknownFormatPattern :=
        h .unknownFormat (by simp [Shape.roles, hne, hb])
      rw [← hformat]
      rfl

theorem Shape.validator_withPatterns : ∀ {s : Shape},
    (∀ role ∈ s.roles r, patterns role = r.target.pattern role) →
      s.validator (r.withPatterns patterns) = s.validator r
  | .primitive _ _, h => Registry.primitive_withPatterns h
  | .array element, h => by
    have harray : patterns .array = r.target.arrayPattern := h .array List.mem_cons_self
    have ih : element.validator (r.withPatterns patterns) = element.validator r :=
      validator_withPatterns fun role hrole => h role (List.mem_cons_of_mem _ hrole)
    rw [validator, validator, ih, ← harray]
    rfl
  | .reference _, _ => rfl
  | .enum _ _ _, h => Target.enumExpression_withPatterns h
  | .object (some _) _, _ => rfl
  | .object none _, _ => rfl

theorem Shape.staticType_withPatterns : ∀ s : Shape,
    s.staticType (r.withPatterns patterns) = s.staticType r
  | .primitive _ _ => rfl
  | .array element => by
    rw [staticType, staticType, staticType_withPatterns element]
  | .reference _ => rfl
  | .enum _ _ _ => rfl
  | .object (some _) _ => rfl
  | .object none _ => rfl

theorem Field.validator_withPatterns {f : Field}
    (h : ∀ role ∈ f.roles r, patterns role = r.target.pattern role) :
    f.validator (r.withPatterns patterns) = f.validator r := by
  have hshape : f.shape.validator (r.withPatterns patterns) = f.shape.validator r :=
    Shape.validator_withPatterns fun role hrole => h role (by simp [roles, hrole])
  have hnull (hnullable : f.nullable = true) : patterns .nullable = r.target.nullablePattern :=
    h .nullable (by simp [roles, hnullable])
  have habsent (hrequired : f.required = false) :
      patterns .optional = r.target.optionalPattern :=
    h .optional (by simp [roles, hrequired])
  rw [validator_eq, validator_eq, hshape]
  congr 1
  funext plain
  rw [Target.modified, Target.modified]
  congr 1
  · cases hnullable : f.nullable with
    | true =>
      rw [if_pos rfl, if_pos rfl, ← hnull hnullable]
      rfl
    | false => rfl
  · funext e
    cases hrequired : f.required with
    | true => rfl
    | false =>
      rw [if_neg Bool.false_ne_true, if_neg Bool.false_ne_true, ← habsent hrequired]
      rfl

namespace Rendered

theorem fieldView_withPatterns {f : Field}
    (h : ∀ role ∈ f.roles r, patterns role = r.target.pattern role) :
    fieldView (r.withPatterns patterns) f = fieldView r f := by
  rw [fieldView, fieldView, Field.validator_withPatterns h, Field.staticType, Field.staticType,
    Shape.staticType_withPatterns]

theorem symbolText_congr {wanted : Bool} {pattern pattern' symbol : String}
    (h : wanted = true → pattern = pattern') :
    symbolText wanted pattern symbol = symbolText wanted pattern' symbol := by
  cases wanted with
  | true => rw [h rfl]
  | false => rfl

theorem ownTexts_withPatterns (h : ∀ role ∈ d.ownRoles r, patterns role = r.target.pattern role) :
    ownTexts (r.withPatterns patterns) d = ownTexts r d := by
  have henum : (if d.isEnum then (r.withPatterns patterns).target.enumExpression d.members
      else .ok "") = if d.isEnum then r.target.enumExpression d.members else .ok "" := by
    cases hkind : d.isEnum with
    | true =>
      exact Target.enumExpression_withPatterns fun role hrole =>
        h role (by simp [Declaration.ownRoles, hkind, hrole])
    | false => rfl
  have hstatic : patterns .staticType = r.target.staticTypePattern :=
    h .staticType (by simp [Declaration.ownRoles])
  have hpartial (symbol : String) :
      symbolText (r.generation.partials && !d.isEnum) (patterns .partialVariant) symbol =
        symbolText (r.generation.partials && !d.isEnum) r.target.partialPattern symbol :=
    symbolText_congr fun hwanted => h .partialVariant (by simp [Declaration.ownRoles, hwanted])
  have hvalidate (symbol : String) :
      symbolText r.generation.helpers (patterns .validate) symbol =
        symbolText r.generation.helpers r.target.validatePattern symbol :=
    symbolText_congr fun hwanted => h .validate (by simp [Declaration.ownRoles, hwanted])
  have hguard (symbol : String) :
      symbolText r.generation.helpers (patterns .guard) symbol =
        symbolText r.generation.helpers r.target.guardPattern symbol :=
    symbolText_congr fun hwanted => h .guard (by simp [Declaration.ownRoles, hwanted])
  rw [ownTexts, henum]
  refine congrArg _ ?_
  simp only [← hstatic, ← hpartial, ← hvalidate, ← hguard]
  rfl

/-- A declaration is rendered alike with all patterns that agree in the roles that it calls for. -/
theorem ofDeclaration_withPatterns
    (h : ∀ role ∈ d.roles r, patterns role = r.target.pattern role) :
    ofDeclaration (r.withPatterns patterns) d = ofDeclaration r d := by
  have hviews : d.fields.mapM
      (fun f => blame d.name (some f.name) (fieldView (r.withPatterns patterns) f)) =
        d.fields.mapM fun f => blame d.name (some f.name) (fieldView r f) := by
    refine Text.mapM_congr fun f hf => ?_
    have hroles : ∀ role ∈ f.roles r, patterns role = r.target.pattern role := by
      intro role hrole
      exact h role (List.mem_append_left _ (List.mem_flatMap.mpr ⟨f, hf, hrole⟩))
    rw [fieldView_withPatterns hroles]
  have hown : ∀ role ∈ d.ownRoles r, patterns role = r.target.pattern role :=
    fun role hrole => h role (List.mem_append_right _ hrole)
  rw [ofDeclaration, ofDeclaration, hviews]
  congr 1
  funext fields
  rw [ofFields_eq, ofFields_eq, ownTexts_withPatterns hown]
  rfl

end Rendered
end SchemaCompiler
