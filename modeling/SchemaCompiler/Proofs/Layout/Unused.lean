import SchemaCompiler.Proofs.Registry.Layers
import SchemaCompiler.Proofs.Rendering.Leaves

/-!
Bindings that are not used. What is generated for a declaration depends on the bindings of the formats
that texts at the leaves of its fields have. A binding of any other format can be set, by a call or by a
configuration, and nothing of the declaration changes, be the format one of numbers or of texts inside
an object that is given in place.
-/
namespace SchemaCompiler

variable {r r' : Registry} {d : Declaration} {format : String} {formats : List String}
  {pairs : List (String × Binding)}

/-- No text at a leaf of a declaration's fields has the format. -/
def Declaration.Unused (d : Declaration) (format : String) : Prop :=
  ∀ f ∈ d.fields, format ≠ "" → f.shape.leaf ≠ .primitive "string" format

theorem Declaration.unused_iff : d.Unused format ↔ format ∉ d.usedFormats := by
  rw [mem_usedFormats]
  constructor
  · rintro h ⟨hne, f, hf, hleaf⟩
    exact h f hf hne hleaf
  · intro h f hf hne hleaf
    exact h ⟨hne, f, hf, hleaf⟩

namespace Registry

theorem last?_eq_none (h : ∀ pair ∈ pairs, pair.1 ≠ format) : last? pairs format = none := by
  rw [last?, List.lookup_eq_none_iff]
  intro pair hpair
  exact bne_iff_ne.mpr (h pair (List.mem_reverse.mp hpair)).symm

/-- A document changes no binding that it does not give. -/
theorem agreeOn_apply (d : Config.Document)
    (hgeneration : (r.apply d).registry.generation = r.generation)
    (h : ∀ pair ∈ bindingsOf (d.sections r.target.name), pair.1 ∉ formats) :
    r.AgreeOn formats (r.apply d).registry := by
  refine ⟨(target_apply r d).symm, hgeneration.symm, fun format hformat => ?_⟩
  have hbindings : (r.apply d).registry.bindings.get? format = r.bindings.get? format := by
    cases hfrozen : r.frozen with
    | true => rw [apply, change, hfrozen, if_pos rfl]
    | false =>
      have hnone : last? (bindingsOf (d.sections r.target.name)) format = none := by
        refine last?_eq_none fun pair hpair heq => ?_
        subst heq
        exact h pair hpair hformat
      rw [registry_apply hfrozen, get?_overlayAll, hnone, Option.none_or]
  rw [get?, get?, hbindings]

theorem agreeOn_register (b : Binding) (h : format ∉ formats) :
    r.AgreeOn formats (r.register format b).registry := by
  cases hfrozen : r.frozen with
  | true =>
    rw [register, change, hfrozen, if_pos rfl]
    exact ⟨rfl, rfl, fun _ _ => rfl⟩
  | false =>
    rw [register, change, hfrozen, if_neg Bool.false_ne_true]
    exact agreeOn_bind r b fun _ => h

end Registry

namespace Layout

/-- All texts of a declaration are the same under two registries. -/
structure SameTexts (r r' : Registry) (d : Declaration) : Prop where
  view : Rendered.ofDeclaration r d = Rendered.ofDeclaration r' d
  imports : ∀ v, Rendered.ofDeclaration r d = .ok v → r.imports v.formats = r'.imports v.formats
  definition : definitionText r d = definitionText r' d
  module : ∀ vs v, Rendered.ofDeclaration r d = .ok v → moduleFile r vs v = moduleFile r' vs v

theorem sameTexts_of_agreeOn (h : r.AgreeOn d.usedFormats r') : SameTexts r r' d := by
  have himports : ∀ v, Rendered.ofDeclaration r d = .ok v →
      r.imports v.formats = r'.imports v.formats := by
    intro v hv
    rw [(Rendered.shows_of_ofDeclaration hv).formats]
    exact Registry.imports_congr h
  refine ⟨Rendered.ofDeclaration_congr h, himports, definitionText_congr h, fun vs v hv => ?_⟩
  rw [moduleFile, moduleFile, himports v hv, h.target]

/-- A declaration has the same texts under registries that agree on the formats that it uses. To set the
binding of another format, by a call or by a document, leaves its texts as they are. -/
theorem unused_bindings (d : Declaration) :
    (∀ r r', r.AgreeOn d.usedFormats r' → SameTexts r r' d) ∧
    (∀ (r : Registry) format b, d.Unused format → SameTexts r (r.register format b).registry d) ∧
    ∀ (r : Registry) document, (r.apply document).registry.generation = r.generation →
      (∀ pair ∈ Registry.bindingsOf (document.sections r.target.name), d.Unused pair.1) →
      SameTexts r (r.apply document).registry d := by
  refine ⟨fun r r' => sameTexts_of_agreeOn, fun r format b hunused => ?_,
    fun r document hgeneration hunused => ?_⟩
  · exact sameTexts_of_agreeOn (Registry.agreeOn_register b (Declaration.unused_iff.mp hunused))
  · refine sameTexts_of_agreeOn (Registry.agreeOn_apply document hgeneration fun pair hpair => ?_)
    exact Declaration.unused_iff.mp (hunused pair hpair)

/-- A day, a number with the format of a time, and a time of an object in place. -/
def counted : Declaration := ⟨"Counted", .object, "", [
  ⟨"count", .primitive "integer" "date-time", "", false, true⟩,
  ⟨"day", .primitive "string" "date", "", false, true⟩,
  ⟨"meta", .object none (some ⟨"Meta", .object, "",
    [⟨"at", .primitive "string" "date-time", "", false, true⟩], [], []⟩), "", false, true⟩],
  [], []⟩

/-- A document that gives times another binding. -/
def momentDocument : Config.Document where
  general := ⟨none, none, .ofList [("date-time", ⟨"Moment", "Moment", "import 'moment';"⟩)], none⟩
  typescript := none
  typescriptZod := none

theorem counted_apart : counted.Unused "date-time" ∧
    SameTexts (.defaults .ioTs)
      ((Registry.defaults .ioTs).register "date-time" ⟨"Moment", "Moment", ""⟩).registry counted ∧
    SameTexts (.defaults .ioTs) ((Registry.defaults .ioTs).apply momentDocument).registry counted ∧
    ∃ r, r.AgreeOn counted.usedFormats (.defaults .ioTs) ∧
      r.get? "date-time" ≠ (Registry.defaults .ioTs).get? "date-time" ∧
      SameTexts r (.defaults .ioTs) counted := by
  have hunused : counted.Unused "date-time" := by
    intro f hf _ hleaf
    simp only [counted, List.mem_cons, List.not_mem_nil, or_false] at hf
    rcases hf with rfl | rfl | rfl
    · exact absurd (Shape.primitive.inj hleaf).1 (by decide)
    · exact absurd (Shape.primitive.inj hleaf).2 (by decide)
    · cases hleaf
  have hgiven : ∀ pair ∈ Registry.bindingsOf (momentDocument.sections Target.ioTs.name),
      counted.Unused pair.1 := List.forall_mem_singleton.mpr hunused
  have hgeneration : ((Registry.defaults .ioTs).apply momentDocument).registry.generation =
      (Registry.defaults .ioTs).generation := by decide +kernel
  obtain ⟨hagreeing, hcall, hdocument⟩ := unused_bindings counted
  refine ⟨hunused, hcall _ _ _ hunused, hdocument _ _ hgeneration hgiven, ?_⟩
  let moment : Registry := (Registry.bind (.defaults .ioTs) "date-time" ⟨"Moment", "Moment", ""⟩).1
  have hagree : moment.AgreeOn counted.usedFormats (.defaults .ioTs) := by
    refine ⟨rfl, rfl, fun format hformat => ?_⟩
    have hother : format ≠ "date-time" := by
      rintro rfl
      exact Declaration.unused_iff.mp hunused hformat
    exact (Registry.get?_bind _ _ _ _).trans (if_neg fun h => hother h.1)
  refine ⟨moment, hagree, ?_, hagreeing moment _ hagree⟩
  decide

end Layout
end SchemaCompiler
