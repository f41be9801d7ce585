import SchemaCompiler.Proofs.Files.Paths
import SchemaCompiler.Proofs.Generation.Effects
import SchemaCompiler.Proofs.Layout.FileNames
import SchemaCompiler.Proofs.ModuleNames

/-!
Files of one run do not overwrite each other, unless a part of a declaration's name is lost in a path.
-/
namespace SchemaCompiler.Generation

open Activity

variable {r : Registry} {package : Option String} {ds : List Declaration} {p : Plan}

/-- The paths of a plan's files are different where no module has an empty part or a single dot in its
path. If none has two dots either, then after a run each path that was written holds what was planned
for it. -/
theorem planned_files_apart (ht : r.target ∈ Target.all) (hm : r.output.mode = .multiple)
    (hplan : Layout.ofDeclarations r package ds = .ok p)
    (hnormal : ∀ d ∈ ds, Path.IsNormal (r.target.fileName d.name)) :
    (∀ folder, (p.files.map (·.path folder)).Nodup) ∧
    ((∀ d ∈ ds, ".." ∉ Path.segments (r.target.fileName d.name)) →
      ∀ {options : Options} {w w₁ w' : World} {o : Outcome}, options.packageName = package →
        (registry r.target options.configFile).on w = (.ok r, w₁) →
        (run r.target ds options).on w = (.ok o, w') →
        (∀ f ∈ p.files, f.overwrite = true → f.path o.folder ∈ o.written) ∧
        ∀ path ∈ o.written, ∃ f ∈ p.files, path = f.path o.folder ∧
          w'.tree.read path = .ok f.content.toUTF8) := by
  obtain ⟨vs, hvs⟩ := Layout.exists_planned hplan
  have hmultiple := Registry.isSingleFile_of_multiple hm
  have hnames := List.pairwise_map.mp (Layout.fileNames_nodup ht hvs hmultiple)
  have hfiles : ∀ f ∈ p.files, Path.IsNormal f.name :=
    Layout.forall_fileName ht hvs hmultiple hnormal (by decide) (by decide)
  refine ⟨fun folder => List.pairwise_map.mpr ?_, fun hup => ?_⟩
  · exact hnames.imp_of_mem fun hf hg hne heq => hne (Path.eq_of_join (hfiles _ hf) (hfiles _ hg) heq)
  · intro options w w₁ w' o hpackage hregistry hrun
    rw [on_run hregistry] at hrun
    refine emitted_reads hrun (hpackage ▸ hplan) (List.pairwise_map.mpr ?_)
    have hsteps : ∀ f ∈ p.files, ".." ∉ Path.segments f.name :=
      Layout.forall_fileName (P := fun name => ".." ∉ Path.segments name) ht hvs hmultiple hup
        (by decide) (by decide)
    exact hnames.imp_of_mem fun hf hg hne heq => hne (Path.eq_of_location_join
      (hfiles _ hf) (hfiles _ hg) (hsteps _ hf) (hsteps _ hg) heq)

/-- A declaration whose module goes into a folder below, and a tree with that folder. -/
def nested : List Declaration := [.object "models/User" "" [] []]

def nestedOptions : Options := ⟨some ⟨"", ["out"]⟩, none, none⟩

def nestedTree : FileTree :=
  { entries := [(⟨.above 0, ["out"]⟩, .folder), (⟨.above 0, ["out", "models"]⟩, .folder)] }

theorem nested_files_apart :
    ∃ p, Layout.ofDeclarations (.freeze (.defaults .ioTs)) none nested = .ok p ∧
      (∀ folder, (p.files.map (·.path folder)).Nodup) ∧
      ∃ o w', (run .ioTs nested nestedOptions).on ⟨nestedTree, []⟩ = (.ok o, w') ∧
        (∀ f ∈ p.files, f.overwrite = true → f.path o.folder ∈ o.written) ∧
        ∀ path ∈ o.written, ∃ f ∈ p.files, path = f.path o.folder ∧
          w'.tree.read path = .ok f.content.toUTF8 := by
  have hmodule : Naming.kebab "models/User" = "models/-user" := by
    rw [Naming.kebab_of_ascii (by decide)]
    decide
  have hordered : Layout.ordered nested = nested := Layout.ordered_eq_self (List.pairwise_singleton _ _)
  obtain ⟨p, hp⟩ : ∃ p, Layout.ofDeclarations (.freeze (.defaults .ioTs)) none nested = .ok p := by
    refine Layout.exists_plan (Target.isPlain_of_mem_all List.mem_cons_self) fun _ => ?_
    rw [hordered]
    change [Layout.indexModule, Naming.kebab "models/User"].Nodup
    rw [hmodule]
    decide
  have hsegments : Path.segments (Target.ioTs.fileName "models/User") = ["models", "-user.ts"] := by
    rw [Target.fileName, hmodule]
    decide
  have happart := planned_files_apart List.mem_cons_self rfl hp (List.forall_mem_singleton.mpr (by
    change ∀ part ∈ Path.segments (Target.ioTs.fileName "models/User"), part ≠ "" ∧ part ≠ "."
    rw [hsegments]
    decide))
  obtain ⟨o, w', hrun⟩ := exists_ok (x := run .ioTs nested nestedOptions)
    (w := ⟨nestedTree, []⟩) (by decide +kernel)
  refine ⟨p, hp, happart.1, o, w', hrun, happart.2 (List.forall_mem_singleton.mpr ?_) rfl rfl hrun⟩
  change ".." ∉ Path.segments (Target.ioTs.fileName "models/User")
  rw [hsegments]
  decide

/-- Two declarations whose modules have one path. -/
def dotted : List Declaration := [.object "./a" "" [] [], .object "a" "" [] []]

theorem dotted_path_shared :
    ∃ p, Layout.ofDeclarations (.freeze (.defaults .ioTs)) none dotted = .ok p ∧
      ¬ (p.files.map (·.path ⟨"", ["out"]⟩)).Nodup := by
  have hordered : Layout.ordered dotted = dotted := Layout.ordered_eq_self (by decide +kernel)
  have hmodules : (dotted.map fun d => Naming.kebab d.name) = ["./a", "a"] := by
    change [Naming.kebab "./a", Naming.kebab "a"] = _
    rw [Naming.kebab_of_ascii (by decide), Naming.kebab_of_ascii (by decide)]
    decide
  obtain ⟨p, hp⟩ : ∃ p, Layout.ofDeclarations (.freeze (.defaults .ioTs)) none dotted = .ok p := by
    refine Layout.exists_plan (Target.isPlain_of_mem_all List.mem_cons_self) fun _ => ?_
    rw [hordered, hmodules]
    decide
  obtain ⟨vs, hvs⟩ := Layout.exists_planned hp
  have hnames : p.files.map (·.name) = ["./a.ts", "a.ts", "index.ts", "package.json"] := by
    rw [Layout.fileNames_eq hvs rfl, hordered, hmodules]
    decide
  have hpaths : p.files.map (·.path ⟨"", ["out"]⟩) =
      (p.files.map (·.name)).map fun name => Path.join ⟨"", ["out"]⟩ (.ofString name) := by
    rw [List.map_map]
    rfl
  refine ⟨p, hp, ?_⟩
  rw [hpaths, hnames]
  decide

end SchemaCompiler.Generation
