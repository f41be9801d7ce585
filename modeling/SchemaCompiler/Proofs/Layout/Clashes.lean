import Mathlib.Data.List.Pairwise
import Mathlib.Order.Bounds.Basic
import SchemaCompiler.Proofs.Layout.Plan
import SchemaCompiler.Proofs.ModuleNames

/-!
When a plan fails, and with what error. No pattern fails to be filled, so what is left are modules
that belong to the index or to two names. The error is about the first name that is in the way, in
the order of the names.
-/
namespace SchemaCompiler.Layout

open Text (exists_left_of_mem forall₂_of_mapM)

variable {r : Registry} {package : Option String} {ds : List Declaration} {p : Plan}
  {vs before : List Rendered} {v w : Rendered} {owners : List (String × String)} {e : RenderError}
  {names : List String} {name : String}

/-- The names of some declarations in order, each once. -/
def distinctNames (ds : List Declaration) : List String := sortNames (ds.map (·.name))

section

variable {before after : List String} (hsorted : (before ++ name :: after).Pairwise (· < ·))

include hsorted

variable (hdistinct : ∀ m ∈ before, ∀ n ∈ before, Naming.kebab m = Naming.kebab n → m = n)

include hdistinct

end

/-- The files of a plan. A view stands for the last declaration of each name. -/
structure Lists (r : Registry) (package : Option String) (ds : List Declaration) (p : Plan)
    (vs : List Rendered) : Prop where
  mode : p.mode = r.output.mode
  views : List.Forall₂ (fun name v => ∃ d, latest? ds name = some d ∧
    Rendered.ofDeclaration r d = .ok v) (distinctNames ds) vs
  modules : vs.map (·.moduleName) = (distinctNames ds).map Naming.kebab
  multiple : r.output.mode = .multiple → ((distinctNames ds).map Naming.kebab).Nodup ∧
    p.files = vs.map (moduleFile r vs) ++ ⟨indexModule ++ r.target.fileExtension,
      SourceText.unlines (SourceText.header :: (distinctNames ds).map fun name =>
        s!"export * from './{Naming.kebab name}';"), true⟩ :: manifests r package
  single : r.output.mode = .single → p.files = ⟨r.output.singleFile,
    SourceText.unlines (SourceText.header :: r.imports (vs.flatMap (·.formats)) ++
      vs.flatMap fun v => "" :: SourceText.definition r.target v), true⟩ :: manifests r package

/-- Two spellings of one module, and a name that comes before both. -/
def spellings : List Declaration :=
  [.object "user-id" "" [] [], .object "Order" "" [] [], .object "UserId" "" [] []]

end SchemaCompiler.Layout
