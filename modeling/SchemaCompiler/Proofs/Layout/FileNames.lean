import Mathlib.Data.List.Nodup
import SchemaCompiler.Proofs.Layout.Plan
import SchemaCompiler.Target.Builtin

/-!
The names of the files of a plan: those of the modules in the order of their declarations, the index
and the manifest. No two of them are the same.
-/
namespace SchemaCompiler

theorem Target.extension_of_mem_all {t : Target} (ht : t ∈ Target.all) : t.fileExtension = ".ts" := by
  revert t
  decide

/-- The name of the file with the module of a declaration. -/
def Target.fileName (t : Target) (name : String) : String := Naming.kebab name ++ t.fileExtension

namespace Layout

variable {r : Registry} {package : Option String} {ds : List Declaration} {p : Plan}
  {vs : List Rendered}

theorem fileNames_eq (h : Planned r package ds p vs) (hm : r.isSingleFile = false) :
    p.files.map (·.name) =
      ((ordered ds).map fun d => Naming.kebab d.name).map (· ++ r.target.fileExtension) ++
        (indexModule ++ r.target.fileExtension) ::
          if r.generation.manifest then [manifestName] else [] := by
  rw [h.files hm, ← moduleNames_eq h.shown, List.map_append, List.map_append, List.map_map,
    List.map_map, manifests, List.append_assoc]
  split
  · rfl
  · rfl

/-- What holds of the names of modules, index and manifest holds of all names in the plan. -/
theorem forall_fileName {P : String → Prop} (ht : r.target ∈ Target.all)
    (h : Planned r package ds p vs) (hm : r.isSingleFile = false)
    (hmodules : ∀ d ∈ ds, P (r.target.fileName d.name)) (hindex : P "index.ts")
    (hmanifest : P "package.json") : ∀ f ∈ p.files, P f.name := by
  intro f hf
  have hname : f.name ∈ p.files.map (·.name) := List.mem_map_of_mem hf
  rw [fileNames_eq h hm] at hname
  rcases List.mem_append.mp hname with hmodule | hother
  · obtain ⟨module, hmodule, heq⟩ := List.mem_map.mp hmodule
    obtain ⟨d, hd, rfl⟩ := List.mem_map.mp hmodule
    exact heq ▸ hmodules d (mem_of_mem_ordered hd)
  · rcases List.mem_cons.mp hother with heq | hother
    · rw [heq, Target.extension_of_mem_all ht]
      exact hindex
    · split at hother
      · exact List.mem_singleton.mp hother ▸ hmanifest
      · cases hother

/-- Names that end in `.ts` are no manifest. -/
theorem ne_manifestName (name : String) : name ++ ".ts" ≠ manifestName := by
  intro h
  have hlast := congrArg (fun s => s.toList.getLast?) h
  simp [manifestName] at hlast

/-- Each file of a plan has a name of its own. -/
theorem fileNames_nodup (ht : r.target ∈ Target.all) (h : Planned r package ds p vs)
    (hm : r.isSingleFile = false) : (p.files.map (·.name)).Nodup := by
  obtain ⟨hindex, hmodules⟩ := List.nodup_cons.mp (modules_nodup h hm)
  have hextension : Function.Injective (· ++ ".ts") := fun _ _ heq => (String.append_left_inj _).mp heq
  rw [fileNames_eq h hm, Target.extension_of_mem_all ht]
  refine ((List.nodup_map_iff hextension).mpr hmodules).append ?_ ?_
  · split
    · simpa using ne_manifestName indexModule
    · exact List.nodup_singleton _
  · intro name hname hother
    obtain ⟨module, hmodule, rfl⟩ := List.mem_map.mp hname
    rcases List.mem_cons.mp hother with heq | hmanifest
    · exact hindex (hextension heq ▸ hmodule)
    · split at hmanifest
      · exact ne_manifestName _ (List.mem_singleton.mp hmanifest)
      · cases hmanifest

end Layout
end SchemaCompiler
