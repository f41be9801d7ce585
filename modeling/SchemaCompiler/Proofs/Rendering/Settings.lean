import SchemaCompiler.Proofs.Order
import SchemaCompiler.Proofs.Rendering.Patterns

/-!
What rendering reads of the settings. The texts of a declaration depend on the target, the generation
settings and the bindings of the formats that the declaration uses, and on nothing else.
-/
namespace SchemaCompiler

/-- Registries with one target and one way to generate that bind some formats alike. -/
structure Registry.AgreeOn (formats : List String) (r r' : Registry) : Prop where
  target : r.target = r'.target
  generation : r.generation = r'.generation
  bindings : ∀ format ∈ formats, r.get? format = r'.get? format

variable {r r' : Registry} {formats formats' : List String} {name format : String} {s : Shape}
  {f : Field} {d : Declaration}

theorem Registry.AgreeOn.mono (h : AgreeOn formats r r') (hsub : formats' ⊆ formats) :
    AgreeOn formats' r r' :=
  ⟨h.target, h.generation, fun format hformat => h.bindings format (hsub hformat)⟩

theorem Shape.formats_formatted (hne : format ≠ "") :
    (Shape.primitive "string" format).formats = [format] := by
  rw [formats, if_pos (by simpa using hne)]

theorem Registry.primitive_congr (h : AgreeOn (Shape.primitive name format).formats r r') :
    r.primitive name format = r'.primitive name format := by
  rcases plain_or_formatted name format with hplain | ⟨rfl, hne⟩
  · rw [primitive_plain hplain, primitive_plain hplain, h.target]
  · rw [Shape.formats_formatted hne] at h
    rw [primitive_formatted hne, primitive_formatted hne, h.target,
      h.bindings format List.mem_cons_self]

theorem Shape.validator_congr : ∀ {s : Shape}, Registry.AgreeOn s.formats r r' →
    s.validator r = s.validator r'
  | .primitive _ _, h => Registry.primitive_congr h
  | .array element, h => by
    have ih : element.validator r = element.validator r' := validator_congr h
    rw [validator, validator, ih, h.target]
  | .reference _, h => by rw [validator, validator, h.target]
  | .enum _ _ _, h => by rw [validator, validator, h.target]
  | .object (some _) _, h => by rw [validator, validator, h.target]
  | .object none _, h => by rw [validator, validator, h.target]

theorem Shape.staticType_congr : ∀ {s : Shape}, Registry.AgreeOn s.formats r r' →
    s.staticType r = s.staticType r'
  | .primitive name format, h => by
    rw [staticType, staticType]
    rcases Registry.plain_or_formatted name format with hplain | ⟨rfl, hne⟩
    · have hnone (r : Registry) : (if name == "string" then r.get? format else none) = none := by
        rcases hplain with hname | rfl
        · exact if_neg (mt beq_iff_eq.mp hname)
        · -- The empty format has no binding in any registry.
          rw [Registry.get?, if_pos (beq_self_eq_true _), ite_self]
      rw [hnone r, hnone r']
    · rw [formats_formatted hne] at h
      rw [h.bindings format List.mem_cons_self]
  | .array element, h => by
    have ih : element.staticType r = element.staticType r' := staticType_congr h
    rw [staticType, staticType, ih]
  | .reference _, _ => rfl
  | .enum _ _ _, _ => rfl
  | .object (some _) _, _ => rfl
  | .object none _, _ => rfl

theorem Field.validator_congr (h : Registry.AgreeOn f.shape.formats r r') :
    f.validator r = f.validator r' := by
  rw [validator_eq, validator_eq, Shape.validator_congr h, h.target]

theorem Field.staticType_congr (h : Registry.AgreeOn f.shape.formats r r') :
    f.staticType r = f.staticType r' := by
  rw [staticType, staticType, Shape.staticType_congr h]

namespace Rendered

theorem fieldView_congr (h : Registry.AgreeOn f.shape.formats r r') :
    fieldView r f = fieldView r' f := by
  rw [fieldView, fieldView, Field.validator_congr h, Field.staticType_congr h]

theorem ofFields_congr (h : Registry.AgreeOn formats r r') (fields : List FieldView) :
    ofFields r d fields = ofFields r' d fields := by
  rw [ofFields, ofFields, h.target, h.generation]

/-- A declaration is rendered alike where the formats that it uses are bound alike. -/
theorem ofDeclaration_congr (h : Registry.AgreeOn d.usedFormats r r') :
    ofDeclaration r d = ofDeclaration r' d := by
  have hviews : d.fields.mapM (fun f => blame d.name (some f.name) (fieldView r f)) =
      d.fields.mapM fun f => blame d.name (some f.name) (fieldView r' f) := by
    refine Text.mapM_congr fun f hf => ?_
    have hf : f.shape.formats ⊆ d.usedFormats := fun format hformat =>
      mem_sortNames.mpr (List.mem_flatMap.mpr ⟨f, hf, hformat⟩)
    rw [fieldView_congr (h.mono hf)]
  rw [ofDeclaration, ofDeclaration, hviews]
  congr 1
  funext fields
  rw [ofFields_congr h]

end Rendered

theorem Registry.imports_congr (h : AgreeOn formats r r') : r.imports formats = r'.imports formats := by
  have hneeded : formats.filterMap (fun f => (r.get? f).map (·.importLine)) =
      formats.filterMap fun f => (r'.get? f).map (·.importLine) :=
    List.filterMap_congr fun format hformat => by rw [h.bindings format hformat]
  rw [imports, imports, hneeded, h.target]

end SchemaCompiler
