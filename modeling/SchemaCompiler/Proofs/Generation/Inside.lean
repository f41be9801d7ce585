import SchemaCompiler.Proofs.Files.Paths
import SchemaCompiler.Proofs.Generation.Apart

/-!
A run writes into its output folder. Only the module of a declaration whose name has a slash may go to
another place.
-/
namespace SchemaCompiler

open Activity

theorem Target.isIn_fileName {t : Target} (ht : t ∈ Target.all) {name : String}
    (h : '/' ∉ name.toList) (folder : Path) :
    (folder.join (.ofString (t.fileName name))).location.IsIn folder.location := by
  have hname : (t.fileName name).toList = (Naming.kebab name).toList ++ ['.', 't', 's'] := by
    rw [fileName, extension_of_mem_all ht, String.toList_append]
    rfl
  refine Path.isIn_of_no_slash ?_ ?_ folder
  · rw [hname, List.mem_append]
    exact not_or.mpr ⟨Naming.slash_not_mem_kebab h, by decide⟩
  · rw [hname, List.length_append]
    exact Nat.lt_add_left _ (Nat.lt_succ_self 2)

namespace Generation

variable {t : Target} {r : Registry} {ds : List Declaration} {options : Options}
  {package : Option String} {p : Plan} {vs : List Rendered} {w w' : World} {l : Location}

/-- A place that a run may write at: it is directly inside the output folder, or a name with a slash
leads there. -/
def Reached (t : Target) (folder : Path) (ds : List Declaration) (l : Location) : Prop :=
  l.IsIn folder.location ∨
    ∃ d ∈ ds, '/' ∈ d.name.toList ∧ l = (folder.join (.ofString (t.fileName d.name))).location

theorem reached_of_places (ht : r.target ∈ Target.all) (h : Layout.Planned r package ds p vs)
    (hm : r.isSingleFile = false) (folder : Path) (hl : places folder p.files l) :
    Reached r.target folder ds l := by
  obtain ⟨f, hf, rfl⟩ := hl
  refine Layout.forall_fileName
    (P := fun name => Reached r.target folder ds (folder.join (.ofString name)).location)
    ht h hm (fun d hd => ?_) (.inl ?_) (.inl ?_) f hf
  · by_cases hslash : '/' ∈ d.name.toList
    · exact .inr ⟨d, hd, hslash, rfl⟩
    · exact .inl (Target.isIn_fileName ht hslash folder)
  · exact Path.isIn_of_no_slash (by decide) (by decide) folder
  · exact Path.isIn_of_no_slash (by decide) (by decide) folder

/-- However a run ends, at each place everything is as it was, or a folder was made where nothing was,
or a file was written. A file is directly inside the output folder, unless it is the module of a
declaration whose name has a slash. -/
theorem run_reaches (ht : t ∈ Target.all)
    (hr : (registry t options.configFile).on w = (.ok r, w')) (hm : r.output.mode = .multiple)
    (l : Location) : FileTree.Becomes (Reached t (outputFolder r options) ds l)
      (w.tree.get? l) (((run t ds options).on w).2.tree.get? l) := by
  obtain rfl : r.target = t := target_of_registry hr
  have hmultiple := Registry.isSingleFile_of_multiple hm
  have hsettled : FileTree.WritesAt (Reached r.target (outputFolder r options) ds)
      w.tree w'.tree := by
    have hrespects := respects_registry
      (R := FileTree.WritesAt (Reached r.target (outputFolder r options) ds)) r.target options.configFile w
    rwa [hr] at hrespects
  rw [on_run hr]
  refine (hsettled.becomes l).trans (((respects_emit r ds options w').becomes l).mono ?_)
  rintro ⟨p, hp, hl⟩
  obtain ⟨vs, hvs⟩ := Layout.exists_planned hp
  exact reached_of_places ht hvs hmultiple _ hl

theorem nested_reaches :
    (registry .ioTs nestedOptions.configFile).on ⟨nestedTree, []⟩ =
      (.ok (.freeze (.defaults .ioTs)), ⟨nestedTree, []⟩) ∧
    (∀ l, FileTree.Becomes (Reached .ioTs ⟨"", ["out"]⟩ nested l) (nestedTree.get? l)
      (((run .ioTs nested nestedOptions).on ⟨nestedTree, []⟩).2.tree.get? l)) ∧
    ∃ content, ((run .ioTs nested nestedOptions).on ⟨nestedTree, []⟩).2.tree.get?
      ⟨.above 0, ["out", "models", "-user.ts"]⟩ = some (.file content) := by
  have hr : (registry .ioTs nestedOptions.configFile).on ⟨nestedTree, []⟩ =
    (.ok (.freeze (.defaults .ioTs)), ⟨nestedTree, []⟩) := rfl
  exact ⟨hr, fun l => run_reaches List.mem_cons_self hr rfl l,
    FileTree.exists_content (by decide +kernel)⟩

/-- A declaration whose name leads up and out of the output folder. -/
def stray : List Declaration := [.object "../evil" "" [] []]

theorem stray_outside :
    (∃ content, ((run .ioTs stray nestedOptions).on ⟨.empty, []⟩).2.tree.get?
      ⟨.above 0, ["evil.ts"]⟩ = some (.file content)) ∧
    ¬ Location.IsIn ⟨.above 0, ["evil.ts"]⟩ (Path.location ⟨"", ["out"]⟩) := by
  refine ⟨FileTree.exists_content (by decide +kernel), ?_⟩
  rintro ⟨name, h⟩
  have hnames : ["evil.ts"] = ["out", name] := congrArg Location.names h
  simp at hnames

end Generation
end SchemaCompiler
