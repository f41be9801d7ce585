import SchemaCompiler.Proofs.Layout.FileNames
import SchemaCompiler.Proofs.Layout.Imports
import SchemaCompiler.Proofs.Rendering.Settings

/-!
Modules and the single file. Both layouts have the same text for each declaration. They differ in
what stands before it: a module imports what its declaration needs, and the single file imports once
what any of them needs.
-/
namespace SchemaCompiler

theorem SourceText.unlines_append (xs ys : List String) :
    unlines (xs ++ ys) = unlines xs ++ unlines ys := by
  rw [unlines, List.map_append, String.join_append]
  rfl

namespace Layout

variable {r r' : Registry} {package : Option String} {ds : List Declaration} {p : Plan}
  {d : Declaration} {v : Rendered} {vs : List Rendered}

/-- The text of the definition of a declaration that can be rendered. -/
def definitionText (r : Registry) (d : Declaration) : String :=
  match Rendered.ofDeclaration r d with
  | .ok v => SourceText.unlines (SourceText.definition r.target v)
  | .error _ => ""

theorem mem_imports {formats : List String} {line : String} (hne : line ≠ r.target.baseImport) :
    line ∈ r.imports formats ↔
      ∃ format ∈ formats, (r.get? format).map (·.importLine) = some line ∧ line ≠ "" := by
  simp only [Registry.imports, List.mem_cons, hne, false_or, mem_sortNames, List.mem_filter,
    List.mem_filterMap, Bool.and_eq_true, bne_iff_ne, ne_eq, not_false_eq_true, and_true]
  constructor
  · rintro ⟨⟨format, hformat, hline⟩, hfull⟩
    exact ⟨format, hformat, hline, hfull⟩
  · rintro ⟨format, hformat, hline, hfull⟩
    exact ⟨⟨format, hformat, hline⟩, hfull⟩

theorem imports_eq {formats : List String} : r.imports formats =
    r.target.baseImport :: sortNames ((r.imports formats).filter (· != r.target.baseImport)) := by
  refine congrArg (r.target.baseImport :: ·) (sortNames_congr fun line => ?_)
  by_cases hbase : line = r.target.baseImport
  · simp [hbase]
  · simp [Registry.imports, mem_sortNames, hbase]

theorem definitionText_congr (h : r.AgreeOn d.usedFormats r') :
    definitionText r d = definitionText r' d := by
  rw [definitionText, definitionText, Rendered.ofDeclaration_congr h, h.target]

/-- The default settings with a single file. -/
def together : Registry := { Registry.defaults .ioTs with output := { mode := .single } }

end Layout
end SchemaCompiler
