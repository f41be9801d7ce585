import SchemaCompiler.Proofs.Files.Paths
import SchemaCompiler.Proofs.Generation.Delivery
import SchemaCompiler.Proofs.Layout.FileNames

/-!
The package manifest. A run writes one where there is none, and keeps one that is there. Every other file
of a plan has the extension of the target, the configured single file too, so that none of them leads to
the manifest.
-/
namespace SchemaCompiler

namespace Registry

variable {r : Registry}

/-- The name of a single file has the extension of the target. -/
def HasExtension (r : Registry) : Prop :=
  r.isSingleFile = true → ∃ base, r.output.singleFile = base ++ r.target.fileExtension

theorem exists_base_of_endsWith {name extension : String} (h : name.endsWith extension = true) :
    ∃ base, name = base ++ extension := by
  rw [String.endsWith_eq_endsWith_toSlice, String.Slice.endsWith_string_iff,
    String.copy_toSlice] at h
  obtain ⟨base, hbase⟩ := h
  refine ⟨.ofList base, String.toList_inj.mp ?_⟩
  rw [String.toList_append, String.toList_ofList, hbase]

/-- A document that is taken leaves a single file with the extension of the target. -/
theorem hasExtension_of_apply {d : Config.Document} (h : (r.apply d).outcome = .ok ()) :
    (r.apply d).registry.HasExtension := by
  have htarget := target_apply r d
  intro hsingle
  rw [htarget]
  rw [apply, change] at h hsingle ⊢
  split at h
  · cases h
  · next hopen =>
    rw [if_neg hopen] at hsingle ⊢
    have hoverlaid := target_overlayAll r (d.sections r.target.name)
    dsimp only at h hsingle ⊢
    split at h
    · cases h
    · next hchecked =>
      rw [if_neg hchecked] at hsingle ⊢
      rw [hsingle, hoverlaid, Bool.true_and, Bool.not_eq_true', Bool.not_eq_false] at hchecked
      exact exists_base_of_endsWith hchecked

theorem hasExtension_defaults (t : Target) : (defaults t).HasExtension := nofun

theorem hasExtension_of_load {tree : FileTree} {p : Path} {found : Bool} (hr : r.HasExtension)
    (h : (r.load tree p).outcome = .ok found) : (r.load tree p).registry.HasExtension := by
  rw [load] at h ⊢
  split at h
  · cases h
  · next hopen =>
    rw [if_neg hopen]
    split at h
    · cases h
    · exact hr
    · next d _ =>
      dsimp only [applyConfig] at h ⊢
      cases hchange : (r.apply d).outcome with
      | error e =>
        rw [hchange] at h
        cases h
      | ok _ => exact hasExtension_of_apply hchange

end Registry

namespace Layout

variable {r : Registry} {package : Option String} {ds : List Declaration} {p : Plan}
  {vs : List Rendered}

/-- A plan has files with the extension of the target, which replace what is there, and then the manifest
if one is wanted. -/
theorem Planned.exists_sources (h : Planned r package ds p vs) (hr : r.HasExtension) :
    ∃ sources, p.files = sources ++ manifests r package ∧
      ∀ f ∈ sources, f.overwrite = true ∧ ∃ base, f.name = base ++ r.target.fileExtension := by
  by_cases hs : r.isSingleFile = true
  · refine ⟨[singleFile r vs], h.together hs, List.forall_mem_singleton.mpr ⟨rfl, hr hs⟩⟩
  · refine ⟨_, h.files (by simpa using hs), fun f hf => ?_⟩
    rcases List.mem_append.mp hf with hf | hf
    · obtain ⟨v, _, rfl⟩ := List.mem_map.mp hf
      exact ⟨rfl, v.moduleName, rfl⟩
    · obtain rfl := List.mem_singleton.mp hf
      exact ⟨rfl, indexModule, rfl⟩

theorem mem_manifests {f : PlannedFile} (h : f ∈ manifests r package) :
    f.overwrite = false ∧ f.name = manifestName := by
  rw [manifests] at h
  split at h
  · obtain rfl := List.mem_singleton.mp h
    exact ⟨rfl, rfl⟩
  · cases h

/-- The manifest is the one file of a plan that is kept where it exists. -/
theorem Planned.kept_eq (h : Planned r package ds p vs) (hr : r.HasExtension) :
    p.files.filter (!·.overwrite) = manifests r package := by
  obtain ⟨sources, hfiles, hsources⟩ := h.exists_sources hr
  have hnone : sources.filter (!·.overwrite) = [] := by
    refine List.filter_eq_nil_iff.mpr fun f hf => ?_
    simp [(hsources f hf).1]
  have hall : (manifests r package).filter (!·.overwrite) = manifests r package := by
    refine List.filter_eq_self.mpr fun f hf => ?_
    simp [(mem_manifests hf).1]
  rw [hfiles, List.filter_append, hnone, hall, List.nil_append]

theorem Planned.overwrite_eq (h : Planned r package ds p vs) (hr : r.HasExtension)
    (ht : r.target ∈ Target.all) : ∀ f ∈ p.files, f.overwrite = (f.name != manifestName) := by
  obtain ⟨sources, hfiles, hsources⟩ := h.exists_sources hr
  intro f hf
  rw [hfiles] at hf
  rcases List.mem_append.mp hf with hf | hf
  · obtain ⟨hreplaces, base, hname⟩ := hsources f hf
    rw [Target.extension_of_mem_all ht] at hname
    rw [hreplaces, hname, bne_iff_ne.mpr (ne_manifestName base)]
  · obtain ⟨hkeeps, hname⟩ := mem_manifests hf
    rw [hkeeps, hname, bne_self_eq_false]

end Layout

/-- What is found at a path is still found there. -/
def FileTree.Retains (p : Path) (t t' : FileTree) : Prop := ∀ e, t.find p = .ok e → t'.find p = .ok e

instance {p : Path} : IsPreorder FileTree (FileTree.Retains p) where
  refl _ _ h := h
  trans _ _ _ h₁ h₂ e he := h₂ e (h₁ e he)

namespace Generation

open Activity

variable {t : Target} {r : Registry} {ds : List Declaration} {options : Options} {folder q : Path}
  {file : PlannedFile} {files : List PlannedFile} {w w' : World} {e : FileEntry}

/-- A planned file does not replace what is at a path: it leads to another place, or it is kept when it
is there. -/
inductive Spares (folder q : Path) (file : PlannedFile) : Prop
  | elsewhere (hreplaces : file.overwrite = true)
      (hplace : q.location ≠ (file.path folder).location)
  | keeping (hkeeps : file.overwrite = false) (hpath : file.path folder = q)

/-- Where something is, a planned file that is to be written leads to another place. -/
theorem Spares.of_new {tree : FileTree} (h : Spares folder q file) (hfind : tree.find q = .ok e)
    (hnew : file.overwrite = true ∨ tree.exists? (file.path folder) = .ok false) :
    file.overwrite = true ∧ q.location ≠ (file.path folder).location := by
  cases h with
  | elsewhere hreplaces hplace => exact ⟨hreplaces, hplace⟩
  | keeping hkeeps hpath =>
    obtain ⟨hlocate, hentry⟩ := FileTree.find_eq_ok.mp hfind
    rcases hnew with hreplaces | hmissing
    · rw [hkeeps] at hreplaces
      cases hreplaces
    · rw [hpath, FileTree.exists?_of_locate hlocate, hentry] at hmissing
      cases hmissing

/-- The file that is kept has a place that no other file leads to. -/
theorem Spares.apart {file' : PlannedFile} (h : Spares folder q file) (h' : Spares folder q file')
    (hreplaces : file.overwrite = true) (hkeeps : file'.overwrite = false) :
    (file.path folder).location ≠ (file'.path folder).location := by
  cases h with
  | keeping hkept => simp [hreplaces] at hkept
  | elsewhere _ hplace =>
    cases h' with
    | elsewhere hreplaced => simp [hkeeps] at hreplaced
    | keeping _ hpath =>
      rw [hpath]
      exact hplace.symm

theorem retains_write (h : Spares folder q file) :
    Respects (FileTree.Retains q) (write folder file) := by
  intro w e hfind
  have hstep := writing folder file w
  rcases hon : (write folder file).on w with ⟨result, w'⟩
  rw [hon] at hstep
  generalize w'.tree = t' at hstep
  cases hstep with
  | kept => exact hfind
  | unseen => exact hfind
  | written _ hnew hwrite | failed _ _ hnew hwrite =>
    obtain ⟨_, hplace⟩ := h.of_new hfind hnew
    have hwrites : FileTree.WritesAt (· = (file.path folder).location) w.tree t' :=
      FileTree.writesAt_write hwrite rfl
    exact hwrites.find hfind hplace

theorem retains_createFolder (folder q : Path) :
    Respects (FileTree.Retains q) (createFolder folder) := by
  intro w e hfind
  have hfolders := respects_createFolder (P := fun _ => False) folder w
  exact hfolders.find hfind not_false

/-- A file that spares what is at a path is written, unless it is the one that is kept. -/
theorem write_of_spares {written : Bool} (h : Spares folder q file) (hfind : w.tree.find q = .ok e)
    (hon : (write folder file).on w = (.ok written, w')) : written = file.overwrite := by
  have hstep := writing folder file w
  rw [hon] at hstep
  generalize w'.tree = t' at hstep
  cases hstep with
  | kept hkeep => exact hkeep.symm
  | written _ hnew _ => exact (h.of_new hfind hnew).1.symm

theorem writeAll_of_spares {entries : List (Path × Bool)} (h : ∀ f ∈ files, Spares folder q f)
    (hfind : w.tree.find q = .ok e) (hon : (writeAll folder files).on w = (.ok entries, w')) :
    entries = files.map fun f => (f.path folder, f.overwrite) := by
  induction files generalizing w entries with
  | nil =>
    cases hon
    rfl
  | cons file rest ih =>
    obtain ⟨hfile, hrest⟩ := List.forall_mem_cons.mp h
    rw [writeAll, on_bind_eq_ok] at hon
    obtain ⟨written, w₁, hwrite, hon⟩ := hon
    obtain ⟨more, w₂, hmore, hon⟩ := on_bind_eq_ok.mp hon
    cases hon
    have hretained := retains_write hfile w e hfind
    rw [hwrite] at hretained
    rw [List.map_cons, ih hrest hretained hmore, write_of_spares hfile hfind hwrite]

/-- The path of the manifest of a package. -/
def manifestPath (folder : Path) : Path := folder.join (.ofString Layout.manifestName)

/-- No name that ends in `.ts` leads to the manifest. -/
theorem manifest_elsewhere (folder : Path) (base : String) :
    (manifestPath folder).location ≠ (folder.join (.ofString (base ++ ".ts"))).location := by
  intro heq
  obtain ⟨stem, hlast⟩ := Path.getLast?_location_join base ".ts" (by decide) (by decide) folder
  rw [← heq, manifestPath, Path.location_join (by decide) (by decide)] at hlast
  have hsegments : Path.segments Layout.manifestName = [Layout.manifestName] := by decide
  rw [hsegments, List.getLast?_concat] at hlast
  exact Layout.ne_manifestName stem (Option.some.inj hlast).symm

theorem hasExtension_of_settings? {tree : FileTree} {configFile : Option Path}
    (h : settings? tree t configFile = .ok r) : r.HasExtension := by
  cases configFile with
  | none =>
    cases h
    exact Registry.hasExtension_defaults t
  | some path =>
    rw [settings?] at h
    cases hloaded : ((Registry.defaults t).load tree path).outcome with
    | error e =>
      rw [hloaded] at h
      cases h
    | ok found =>
      rw [hloaded] at h
      cases h
      exact Registry.hasExtension_of_load (Registry.hasExtension_defaults t) hloaded

/-- All files of a plan spare a manifest that is there. -/
theorem spares_manifest {package : Option String} {p : Plan} {vs : List Rendered}
    (ht : r.target ∈ Target.all) (hr : r.HasExtension) (h : Layout.Planned r package ds p vs)
    (folder : Path) : ∀ f ∈ p.files, Spares folder (manifestPath folder) f := by
  obtain ⟨sources, hfiles, hsources⟩ := h.exists_sources hr
  intro f hf
  rw [hfiles] at hf
  rcases List.mem_append.mp hf with hf | hf
  · obtain ⟨hreplaces, base, hname⟩ := hsources f hf
    refine .elsewhere hreplaces ?_
    rw [PlannedFile.path, hname, Target.extension_of_mem_all ht]
    exact manifest_elsewhere folder base
  · obtain ⟨hkeeps, hname⟩ := Layout.mem_manifests hf
    refine .keeping hkeeps ?_
    rw [PlannedFile.path, hname, manifestPath]

/-- The files of a plan that are kept where they exist are the manifest, if one is wanted. -/
theorem paths_of_kept {package : Option String} {p : Plan} {vs : List Rendered}
    (h : Layout.Planned r package ds p vs) (hr : r.HasExtension) (folder : Path) :
    (p.files.filter (!·.overwrite)).map (·.path folder) =
      if r.generation.manifest then [manifestPath folder] else [] := by
  rw [h.kept_eq hr, Layout.manifests]
  split
  · rfl
  · rfl

/-- What is at a path stays there through a run whose files all spare it, however the run ends. -/
theorem retains_run (h : ∀ r p, settings? w.tree t options.configFile = .ok r →
    Layout.ofDeclarations r options.packageName ds = .ok p →
    ∀ f ∈ p.files, Spares (outputFolder r options) q f) :
    FileTree.Retains q w.tree ((run t ds options).on w).2.tree := by
  obtain ⟨w₁, hon, htree⟩ := on_registry t options.configFile w
  rw [run, on_bind, hon]
  cases hsettings : settings? w.tree t options.configFile with
  | error e => exact fun _ hfind => htree ▸ hfind
  | ok r =>
    have hemit : Respects (FileTree.Retains q) (emit r ds options) :=
      respects_emit_of_write (retains_createFolder _ q) fun p hp f hf =>
        retains_write (h r p hsettings hp f hf)
    have hretained := hemit w₁
    rwa [htree] at hretained

/-- Paths that are told by whether their files replace what is there. -/
theorem map_fst_filter (keep : Bool → Bool) (files : List PlannedFile) (folder : Path) :
    ((files.map fun f => (f.path folder, f.overwrite)).filter fun entry => keep entry.2).map (·.1) =
      (files.filter fun f => keep f.overwrite).map (·.path folder) := by
  rw [List.filter_map, List.map_map]
  rfl

/-- A run that goes through and whose files spare what is at a path writes them all, except for those
that are kept. -/
theorem run_of_spares {o : Outcome} (hspares : ∀ r p, settings? w.tree t options.configFile = .ok r →
      Layout.ofDeclarations r options.packageName ds = .ok p → ∀ f ∈ p.files, Spares o.folder q f)
    (hfind : w.tree.find q = .ok e) (hrun : (run t ds options).on w = (.ok o, w')) :
    ∃ r p, settings? w.tree t options.configFile = .ok r ∧
      Layout.ofDeclarations r options.packageName ds = .ok p ∧ o.folder = outputFolder r options ∧
      o.written = (p.files.filter (·.overwrite)).map (·.path o.folder) ∧
      o.skipped = (p.files.filter (!·.overwrite)).map (·.path o.folder) := by
  obtain ⟨r, p, entries, w₁, w₂, hsettings, hplan, hmade, hwrites, _, ho, hwritten, hskipped⟩ :=
    run_emitted hrun
  have hfound : w₁.tree.find q = .ok e := by
    have hfolders := FileTree.writesAt_ensureFolders (P := fun _ => False) w.tree o.folder
    rw [hmade] at hfolders
    exact hfolders.find hfind not_false
  obtain rfl := writeAll_of_spares (hspares r p hsettings hplan) hfound hwrites
  exact ⟨r, p, hsettings, hplan, ho, hwritten.trans (map_fst_filter id _ _),
    hskipped.trans (map_fst_filter not _ _)⟩

/-- A manifest that is there stays as it is, however a run ends. A run that goes through skips it when a
manifest is wanted, and writes all other files in the order of the plan. -/
theorem manifest_kept (ds : List Declaration) (options : Options) (ht : t ∈ Target.all)
    (hfolder : ∀ r, settings? w.tree t options.configFile = .ok r → outputFolder r options = folder)
    (hthere : w.tree.exists? (manifestPath folder) = .ok true) :
    (∃ e, w.tree.find (manifestPath folder) = .ok e ∧
      ((run t ds options).on w).2.tree.find (manifestPath folder) = .ok e) ∧
    ∀ o w', (run t ds options).on w = (.ok o, w') → ∃ r p,
      settings? w.tree t options.configFile = .ok r ∧
      Layout.ofDeclarations r options.packageName ds = .ok p ∧ o.folder = folder ∧
      o.skipped = (if r.generation.manifest then [manifestPath folder] else []) ∧
      o.written = (p.files.filter (·.name != Layout.manifestName)).map (·.path folder) := by
  obtain ⟨hlocate, hentry⟩ := FileTree.exists?_eq_true.mp hthere
  obtain ⟨e, he⟩ := Option.isSome_iff_exists.mp hentry
  have hfind : w.tree.find (manifestPath folder) = .ok e := FileTree.find_eq_ok.mpr ⟨hlocate, he⟩
  have hspares : ∀ r p, settings? w.tree t options.configFile = .ok r →
      Layout.ofDeclarations r options.packageName ds = .ok p →
      ∀ f ∈ p.files, Spares folder (manifestPath folder) f := by
    intro r p hsettings hplan
    obtain ⟨vs, hvs⟩ := Layout.exists_planned hplan
    exact spares_manifest (target_of_settings? hsettings ▸ ht)
      (hasExtension_of_settings? hsettings) hvs folder
  refine ⟨⟨e, hfind, retains_run (fun r p hr hp => ?_) e hfind⟩, fun o w' hrun => ?_⟩
  · rw [hfolder r hr]
    exact hspares r p hr hp
  · obtain rfl : o.folder = folder := by
      obtain ⟨r, _, _, _, _, hsettings, _, _, _, _, ho, _⟩ := run_emitted hrun
      rw [ho, hfolder r hsettings]
    obtain ⟨r, p, hsettings, hplan, _, hwritten, hskipped⟩ := run_of_spares hspares hfind hrun
    obtain ⟨vs, hvs⟩ := Layout.exists_planned hplan
    have hextension := hasExtension_of_settings? hsettings
    have htarget : r.target ∈ Target.all := target_of_settings? hsettings ▸ ht
    refine ⟨r, p, hsettings, hplan, rfl, hskipped.trans (paths_of_kept hvs hextension _), ?_⟩
    rw [hwritten, List.filter_congr (hvs.overwrite_eq hextension htarget)]

/-- A folder with a manifest, and a run into it. -/
def packaged : FileTree :=
  { entries := [(⟨.above 0, ["out"]⟩, .folder),
    (⟨.above 0, ["out", "package.json"]⟩, .file "old".toUTF8)] }

def packagedRun : Activity Outcome :=
  run .ioTs [.object "A" "" [] []] ⟨some ⟨"", ["out"]⟩, none, none⟩

theorem packaged_manifest_kept :
    (∃ e, packaged.find (manifestPath ⟨"", ["out"]⟩) = .ok e ∧
      (packagedRun.on ⟨packaged, []⟩).2.tree.find (manifestPath ⟨"", ["out"]⟩) = .ok e) ∧
    ∃ o w', packagedRun.on ⟨packaged, []⟩ = (.ok o, w') ∧
      o.skipped = [manifestPath ⟨"", ["out"]⟩] := by
  have hthere : packaged.exists? (manifestPath ⟨"", ["out"]⟩) = .ok true := by decide +kernel
  obtain ⟨hstays, hdone⟩ := manifest_kept (t := .ioTs) (w := ⟨packaged, []⟩)
    [.object "A" "" [] []] ⟨some ⟨"", ["out"]⟩, none, none⟩ List.mem_cons_self (fun _ _ => rfl) hthere
  obtain ⟨o, w', hrun⟩ := exists_ok (x := packagedRun) (w := ⟨packaged, []⟩) (by decide +kernel)
  obtain ⟨r, p, hsettings, _, _, hskipped, _⟩ := hdone o w' hrun
  cases hsettings
  exact ⟨hstays, o, w', hrun, hskipped⟩

end Generation
end SchemaCompiler
