import Mathlib.Data.List.Infix
import SchemaCompiler.Proofs.Files.Refusals
import SchemaCompiler.Proofs.Generation.Manifest

/-!
Runs that are interrupted. The files that a run writes do not get into the way of its other files, nor do
they make way for them, so a run stops at the first planned file that could not be written to begin with.
What it has done until then stays, and of the file that it stops at an empty one is left when only its
content is in the way.
-/
namespace SchemaCompiler

namespace Generation

open Activity

variable {t : Target} {r : Registry} {ds : List Declaration} {options : Options} {p : Plan}
  {folder : Path} {file g : PlannedFile} {files before : List PlannedFile}
  {tree tree' made after : FileTree} {w w' : World} {cause : FileError} {e : Failure}

/-- A tree with a planned file at its place, unless something is there that is to be kept. -/
def deliver (folder : Path) (tree : FileTree) (file : PlannedFile) : FileTree :=
  if !file.overwrite && (tree.get? (file.path folder).location).isSome then tree
  else tree.insert (file.path folder).location (.file file.content.toUTF8)

/-- A tree with planned files at their places, one after the other. -/
def deliverAll (folder : Path) (files : List PlannedFile) (tree : FileTree) : FileTree :=
  files.foldl (deliver folder) tree

/-- No file leads to the place of a later one that is kept where it exists. -/
def KeepsApart (folder : Path) (files : List PlannedFile) : Prop :=
  files.Pairwise fun f g => g.overwrite = false →
    (f.path folder).location ≠ (g.path folder).location

/-- A planned file that can be neither written nor kept, after others that can. -/
structure FirstStuck (tree : FileTree) (folder : Path) (files before : List PlannedFile)
    (file : PlannedFile) : Prop where
  leads : before ++ [file] <+: files
  writable : ∀ f ∈ before, Writable tree folder f
  stuck : ¬ Writable tree folder file

/-- What a run ends with that can neither write a planned file nor keep what is there. A path that is too
long when it is looked up is not reported as one that cannot be written. -/
def fileFailure (folder : Path) (file : PlannedFile) (cause : FileError) : Failure :=
  if file.overwrite = false ∧ cause = .refused .nameTooLong (file.path folder).text then .file cause
  else cause.failure (file.path folder) .file

theorem deliver_cases (h : Writable tree folder file) :
    (file.overwrite = false ∧ tree.exists? (file.path folder) = .ok true ∧
      deliver folder tree file = tree) ∨
    ((file.overwrite = true ∨ tree.exists? (file.path folder) = .ok false) ∧
      tree.write (file.path folder) file.content = (deliver folder tree file, .ok ())) := by
  obtain ⟨hlocate, hentry⟩ := writable_iff.mp h
  have hexists := FileTree.exists?_of_locate hlocate
  rw [deliver]
  by_cases hkept : file.overwrite = false ∧ (tree.get? (file.path folder).location).isSome
  · left
    obtain ⟨hkeep, hthere⟩ := hkept
    rw [hthere] at hexists
    refine ⟨hkeep, hexists, if_pos ?_⟩
    rw [hkeep, hthere]
    rfl
  · right
    obtain ⟨hfolder, hencodes⟩ := hentry.resolve_left hkept
    rw [if_neg (by simpa using hkept)]
    refine ⟨?_, FileTree.write_eq_ok.mpr ⟨hlocate, hfolder, hencodes, rfl⟩⟩
    cases hover : file.overwrite with
    | true => exact .inl rfl
    | false =>
      have hmissing := Bool.eq_false_of_not_eq_true fun hthere => hkept ⟨hover, hthere⟩
      rw [hmissing] at hexists
      exact .inr hexists

/-- What is written does not make way for what is still to be written. -/
theorem writable_of_write (hwrite : tree.write (g.path folder) g.content = (tree', .ok ()))
    (hapart : file.overwrite = false → (g.path folder).location ≠ (file.path folder).location)
    (h : Writable tree' folder file) : Writable tree folder file := by
  obtain ⟨hlocate, hentry⟩ := writable_iff.mp h
  have hwrites : FileTree.WritesAt (fun _ => True) tree tree' :=
    FileTree.writesAt_write hwrite trivial
  have hfolders : ∀ l, tree'.get? l = some .folder → tree.get? l = some .folder := by
    intro l hl
    rw [FileTree.get?_write hwrite] at hl
    split at hl
    · cases hl
    · exact hl
  refine writable_iff.mpr
    ⟨FileTree.locate_of_folders hwrites.surrogates.symm hfolders hlocate, ?_⟩
  rcases hentry with ⟨hkeep, hthere⟩ | ⟨hnone, hencodes⟩
  · rw [FileTree.get?_write hwrite, if_neg (hapart hkeep).symm] at hthere
    exact .inl ⟨hkeep, hthere⟩
  · rw [FileTree.contentFault?_congr hwrites.surrogates] at hencodes
    exact .inr ⟨fun hfolder => hnone (hwrites.folder hfolder), hencodes⟩

/-- What is delivered does not get into the way of what is still to be written. -/
theorem Writable.of_deliver (h : Writable tree folder file) (hg : Writable tree folder g) :
    Writable (deliver folder tree g) folder file := by
  rcases deliver_cases hg with ⟨_, _, hsame⟩ | ⟨_, hwrite⟩
  · rwa [hsame]
  · exact h.of_write hwrite

theorem writable_of_deliver (hg : Writable tree folder g)
    (hapart : file.overwrite = false → (g.path folder).location ≠ (file.path folder).location)
    (h : Writable (deliver folder tree g) folder file) : Writable tree folder file := by
  rcases deliver_cases hg with ⟨_, _, hsame⟩ | ⟨_, hwrite⟩
  · rwa [hsame] at h
  · exact writable_of_write hwrite hapart h

theorem puts_deliver (h : Writable tree folder file) (hfile : file ∈ files) :
    Puts folder files tree (deliver folder tree file) := by
  rcases deliver_cases h with ⟨_, _, hsame⟩ | ⟨_, hwrite⟩
  · rw [hsame]
    exact .refl tree
  · exact puts_write hfile hwrite

/-- Files come to their own places only. -/
theorem puts_deliverAll (h : ∀ f ∈ files, Writable tree folder f) :
    Puts folder files tree (deliverAll folder files tree) := by
  suffices hsome : ∀ some ⊆ files, ∀ tree, (∀ f ∈ some, Writable tree folder f) →
      Puts folder files tree (deliverAll folder some tree) from
    hsome files (List.Subset.refl files) tree h
  intro some
  induction some with
  | nil => exact fun _ tree _ => .refl tree
  | cons f rest ih =>
    intro hsub tree hwritable
    obtain ⟨hf, hrest⟩ := List.forall_mem_cons.mp hwritable
    obtain ⟨hmem, hmore⟩ := List.cons_subset.mp hsub
    have hlater : ∀ f' ∈ rest, Writable (deliver folder tree f) folder f' :=
      fun f' hf' => (hrest f' hf').of_deliver hf
    exact (puts_deliver hf hmem).trans (ih hmore _ hlater)

theorem writesAt_deliverAll (h : ∀ f ∈ files, Writable tree folder f) :
    FileTree.WritesAt (fun _ => True) tree (deliverAll folder files tree) := by
  induction files generalizing tree with
  | nil => exact .refl tree
  | cons f rest ih =>
    obtain ⟨hf, hrest⟩ := List.forall_mem_cons.mp h
    have hlater := ih fun f' hf' => (hrest f' hf').of_deliver hf
    rcases deliver_cases hf with ⟨_, _, hsame⟩ | ⟨_, hwrite⟩
    · rw [hsame] at hlater
      rwa [deliverAll, List.foldl_cons, hsame]
    · exact (FileTree.writesAt_write hwrite trivial).trans hlater

theorem exists_firstStuck (h : ¬ ∀ f ∈ files, Writable tree folder f) :
    ∃ before file, FirstStuck tree folder files before file := by
  induction files with
  | nil => exact absurd nofun h
  | cons f rest ih =>
    by_cases hf : Writable tree folder f
    · have hrest : ¬ ∀ f ∈ rest, Writable tree folder f :=
        fun hall => h (List.forall_mem_cons.mpr ⟨hf, hall⟩)
      obtain ⟨before, file, hleads, hwritable, hstuck⟩ := ih hrest
      exact ⟨f :: before, file, List.cons_prefix_cons.mpr ⟨rfl, hleads⟩,
        List.forall_mem_cons.mpr ⟨hf, hwritable⟩, hstuck⟩
    · exact ⟨[], f, List.cons_prefix_cons.mpr ⟨rfl, List.nil_prefix⟩, nofun, hf⟩

theorem path_of_manifest (hname : file.name = Layout.manifestName) :
    file.path folder = ⟨folder.root, folder.parts ++ [Layout.manifestName]⟩ := by
  have hsegments : Path.segments Layout.manifestName = [Layout.manifestName] := by decide
  rw [PlannedFile.path, hname, Path.join_of_isNormal (by decide), hsegments]

theorem fits_manifestName : ∀ c ∈ Layout.manifestName.toList, tree.Fits c := by
  have hascii : (Layout.manifestName.toList.all fun c => c != '\x00' && c.toNat < 0x80) = true := by
    decide
  intro c hc
  obtain ⟨hnull, hc⟩ := Bool.and_eq_true_iff.mp (List.all_eq_true.mp hascii c hc)
  exact FileTree.fits_of_ascii (bne_iff_ne.mp hnull) (of_decide_eq_true hc)

/-- No planned file leads to the manifest but itself. -/
theorem keepsApart_files {package : Option String} {vs : List Rendered} (ht : r.target ∈ Target.all)
    (hr : r.HasExtension) (h : Layout.Planned r package ds p vs) (folder : Path) :
    KeepsApart folder p.files := by
  obtain ⟨sources, hfiles, hsources⟩ := h.exists_sources hr
  have hreplaces : ∀ f ∈ sources, ∀ g ∈ sources, g.overwrite = false →
      (f.path folder).location ≠ (g.path folder).location := by
    intro _ _ g hg hkeeps
    rw [(hsources g hg).1] at hkeeps
    cases hkeeps
  rw [KeepsApart, hfiles, List.pairwise_append]
  refine ⟨List.pairwise_of_forall_mem_list hreplaces, ?_, fun f hf g hg _ => ?_⟩
  · rw [Layout.manifests]
    split
    · exact List.pairwise_singleton _ _
    · exact .nil
  · obtain ⟨_, base, hname⟩ := hsources f hf
    rw [PlannedFile.path, PlannedFile.path, hname, (Layout.mem_manifests hg).2,
      Target.extension_of_mem_all ht]
    exact (manifest_elsewhere folder base).symm

/-- What goes through in the writing of a planned file is its delivery. -/
theorem tree_of_write {written : Bool} (hon : (write folder file).on w = (.ok written, w')) :
    w'.tree = deliver folder w.tree file := by
  have hstep := writing folder file w
  rw [hon] at hstep
  generalize w'.tree = after at hstep ⊢
  cases hstep with
  | kept hkeeps hexists =>
    rcases deliver_cases (.inl ⟨hkeeps, hexists⟩) with ⟨_, _, hsame⟩ | ⟨hnew, _⟩
    · exact hsame.symm
    · rw [hkeeps, hexists] at hnew
      rcases hnew with hnew | hnew
      · cases hnew
      · cases hnew
  | written _ hnew hwrite =>
    rcases deliver_cases (.inr ⟨_, hwrite⟩) with ⟨hkeeps, hexists, _⟩ | ⟨_, hdelivers⟩
    · rw [hkeeps, hexists] at hnew
      rcases hnew with hnew | hnew
      · cases hnew
      · cases hnew
    · exact (Prod.mk.inj (hwrite.symm.trans hdelivers)).1

/-- A planned file that can be neither written nor kept stops the run, for the cause for which it cannot
be written, and leaves what the writing leaves. -/
theorem write_of_stuck (h : ¬ Writable w.tree folder file) :
    ∃ cause w', (write folder file).on w = (.error (fileFailure folder file cause), w') ∧
      w.tree.write (file.path folder) file.content = (w'.tree, .error cause) := by
  obtain ⟨hnew, hwrite⟩ := not_or.mp h
  rw [write, on_bind]
  rcases keeping folder file w with ⟨_, hkeeps, hexists⟩ | ⟨hon, hmissing⟩ |
    ⟨cause, hon, hkeeps, hexists⟩
  · exact absurd ⟨hkeeps, hexists⟩ hnew
  · rw [hon]
    dsimp only
    rw [if_neg Bool.false_ne_true, on_bind]
    rcases overwriting folder file w with ⟨w', _, hwritten⟩ | ⟨cause, w', hfails, hover⟩
    · exact absurd ⟨_, hwritten⟩ hwrite
    · refine ⟨cause, w', ?_, hfails⟩
      rw [hover, fileFailure, if_neg]
      -- A path that is too long to be written at is too long to be looked up.
      rintro ⟨hkeeps, rfl⟩
      have hends := FileTree.writeEnds w.tree (file.path folder) file.content
      rw [hfails] at hends
      generalize w'.tree = after at hends
      cases hends with
      | unlocated _ hlocate =>
        have hexists := FileTree.exists?_eq_error.mpr ⟨hlocate, rfl⟩
        rw [hkeeps, hexists] at hmissing
        rcases hmissing with hmissing | hmissing
        · cases hmissing
        · cases hmissing
  · obtain ⟨hlocate, rfl⟩ := FileTree.exists?_eq_error.mp hexists
    refine ⟨_, w, ?_, FileTree.write_of_unlocated hlocate file.content⟩
    rw [hon, fileFailure, if_pos ⟨hkeeps, rfl⟩]

theorem tree_of_writeAll {entries : List (Path × Bool)}
    (hon : (writeAll folder files).on w = (.ok entries, w')) :
    w'.tree = deliverAll folder files w.tree := by
  induction files generalizing w entries with
  | nil =>
    cases hon
    rfl
  | cons file rest ih =>
    obtain ⟨written, w₁, hwrite, hon⟩ := on_bind_eq_ok.mp hon
    obtain ⟨more, w₂, hmore, hon⟩ := on_bind_eq_ok.mp hon
    cases hon
    rw [ih hmore, tree_of_write hwrite]
    rfl

/-- Once its first files are delivered, the others are still stuck at the same one. -/
theorem FirstStuck.later (h : FirstStuck tree folder (g :: files) (g :: before) file)
    (hapart : KeepsApart folder (g :: files)) :
    FirstStuck (deliver folder tree g) folder files before file := by
  obtain ⟨hg, hbefore⟩ := List.forall_mem_cons.mp h.writable
  have hleads := (List.cons_prefix_cons.mp h.leads).2
  have hfile : file ∈ files := hleads.subset (List.mem_append_right _ (List.mem_singleton_self file))
  refine ⟨hleads, fun f hf => (hbefore f hf).of_deliver hg, fun hwritable => h.stuck ?_⟩
  exact writable_of_deliver hg ((List.pairwise_cons.mp hapart).1 file hfile) hwritable

/-- Files are delivered in their order up to the first one that is stuck. -/
theorem writeAll_of_firstStuck (h : FirstStuck w.tree folder files before file)
    (hapart : KeepsApart folder files) :
    ∃ cause w', (writeAll folder files).on w = (.error (fileFailure folder file cause), w') ∧
      (deliverAll folder before w.tree).write (file.path folder) file.content =
        (w'.tree, .error cause) := by
  induction before generalizing files w with
  | nil =>
    obtain ⟨rest, rfl⟩ := h.leads
    obtain ⟨cause, w', hon, hcause⟩ := write_of_stuck h.stuck
    refine ⟨cause, w', ?_, hcause⟩
    rw [List.nil_append, List.singleton_append, writeAll, on_bind, hon]
  | cons g before ih =>
    obtain ⟨rest, hfiles⟩ := h.leads
    obtain rfl : g :: (before ++ [file] ++ rest) = files := hfiles
    obtain ⟨written, w₁, hon, _⟩ := write_of_writable (h.writable g List.mem_cons_self)
    have hlater := h.later hapart
    rw [← tree_of_write hon] at hlater
    obtain ⟨cause, w₂, hmore, hcause⟩ := ih hlater (List.pairwise_cons.mp hapart).2
    refine ⟨cause, w₂, ?_, ?_⟩
    · rw [writeAll, on_bind, hon]
      dsimp only
      rw [on_bind, hmore]
    · rw [tree_of_write hon] at hcause
      exact hcause

/-- A run that has made its output folder stops at a planned file, for a cause, and leaves a tree. -/
structure Stops (folder : Path) (files : List PlannedFile) (tree made : FileTree)
    (before : List PlannedFile) (file : PlannedFile) (cause : FileError) (after : FileTree) :
    Prop where
  make : tree.ensureFolders folder = (made, .ok ())
  first : FirstStuck made folder files before file
  ends : FileTree.WriteEnds (deliverAll folder before made) (file.path folder) file.content
    (after, .error cause)

/-- How a run ends that has a plan, and the tree that it leaves: the output folder cannot be made, or the
files are delivered up to one that is stuck, or all are delivered. -/
inductive Ended (folder : Path) (files : List PlannedFile) (tree : FileTree) :
    Except Failure Outcome → FileTree → Prop
  | noFolder (made : FileTree) (cause : FileError)
      (hmake : tree.ensureFolders folder = (made, .error cause)) :
      Ended folder files tree (.error (cause.failure folder .folder)) made
  | stuck (made : FileTree) (before : List PlannedFile) (file : PlannedFile) (cause : FileError)
      (after : FileTree) (hstops : Stops folder files tree made before file cause after) :
      Ended folder files tree (.error (fileFailure folder file cause)) after
  | done (made : FileTree) (o : Outcome) (hmake : tree.ensureFolders folder = (made, .ok ()))
      (hall : ∀ f ∈ files, Writable made folder f) :
      Ended folder files tree (.ok o) (deliverAll folder files made)

theorem emit_ended (ht : r.target ∈ Target.all) (hr : r.HasExtension)
    (hplan : Layout.ofDeclarations r options.packageName ds = .ok p) :
    Ended (outputFolder r options) p.files w.tree ((emit r ds options).on w).1
      ((emit r ds options).on w).2.tree := by
  obtain ⟨vs, hvs⟩ := Layout.exists_planned hplan
  have hapart := keepsApart_files ht hr hvs (outputFolder r options)
  obtain ⟨w₁, hon, htree⟩ := on_plan r options.packageName ds w
  rw [hplan] at hon
  change _ = (Except.ok p, w₁) at hon
  rw [emit, on_bind, hon, ← htree]
  dsimp only
  rw [on_bind, on_createFolder]
  rcases hmake : w₁.tree.ensureFolders (outputFolder r options) with ⟨made, result⟩
  cases result with
  | error cause => exact .noFolder made cause hmake
  | ok _ =>
    dsimp only [Except.mapError]
    rw [on_bind]
    by_cases hall : ∀ f ∈ p.files, Writable made (outputFolder r options) f
    · obtain ⟨entries, w₂, hwrite, _⟩ := writeAll_of_writable (w := { w₁ with tree := made }) hall
      have hend := tree_of_writeAll hwrite
      rw [hwrite]
      exact hend ▸ .done made _ hmake hall
    · obtain ⟨before, file, hfirst⟩ := exists_firstStuck hall
      obtain ⟨cause, w₂, hwrite, hcause⟩ :=
        writeAll_of_firstStuck (w := { w₁ with tree := made }) hfirst hapart
      have hends := FileTree.writeEnds (deliverAll (outputFolder r options) before made)
        (file.path (outputFolder r options)) file.content
      rw [hcause] at hends
      rw [hwrite]
      exact .stuck made before file cause w₂.tree ⟨hmake, hfirst, hends⟩

theorem run_ended (ds : List Declaration) (ht : t ∈ Target.all)
    (hsettings : settings? w.tree t options.configFile = .ok r)
    (hplan : Layout.ofDeclarations r options.packageName ds = .ok p) :
    Ended (outputFolder r options) p.files w.tree ((run t ds options).on w).1
      ((run t ds options).on w).2.tree := by
  obtain ⟨w₁, hon, htree⟩ := on_registry t options.configFile w
  rw [hsettings] at hon
  rw [run, on_bind, hon, ← htree]
  exact emit_ended (target_of_settings? hsettings ▸ ht) (hasExtension_of_settings? hsettings) hplan

/-- A run that has a plan and its folder and then fails has delivered the files before one that it cannot
deliver, and has failed for that one. Either that is all that it has done, or the content of this file has
no encoding, and an empty file is left in its place. The folder has changed no file. -/
theorem run_interrupted (ds : List Declaration) (options : Options) (ht : t ∈ Target.all)
    (hsettings : settings? w.tree t options.configFile = .ok r)
    (hplan : Layout.ofDeclarations r options.packageName ds = .ok p)
    (hmake : w.tree.ensureFolders (outputFolder r options) = (made, .ok ()))
    (hrun : (run t ds options).on w = (.error e, w')) :
    (∀ l content, made.get? l = some (.file content) ↔ w.tree.get? l = some (.file content)) ∧
    ∃ before file cause, FirstStuck made (outputFolder r options) p.files before file ∧
      e = fileFailure (outputFolder r options) file cause ∧
      (∀ l, (∀ f ∈ before, (f.path (outputFolder r options)).location ≠ l) →
        (deliverAll (outputFolder r options) before made).get? l = made.get? l) ∧
      (w'.tree = deliverAll (outputFolder r options) before made ∧
          FileTree.RefusedAt w'.tree (file.path (outputFolder r options)) cause ∨
        ∃ f, made.contentFault? file.content = some f ∧ cause = .notEncodable f ∧
          (deliverAll (outputFolder r options) before made).locate
            (file.path (outputFolder r options)) =
              .ok (file.path (outputFolder r options)).location ∧
          w'.tree = (deliverAll (outputFolder r options) before made).insert
            (file.path (outputFolder r options)).location (.file .empty)) := by
  have hend := run_ended ds ht hsettings hplan
  rw [hrun] at hend
  refine ⟨fun l content => ?_, ?_⟩
  · have hfolders :=
      FileTree.writesAt_ensureFolders (P := fun _ => False) w.tree (outputFolder r options)
    rw [hmake] at hfolders
    exact hfolders.file_iff not_false
  · generalize w'.tree = after at hend ⊢
    cases hend with
    | noFolder _ _ hfails =>
      rw [hmake] at hfails
      cases hfails
    | stuck made' before file cause _ hstops =>
      obtain rfl : made = made' := congrArg Prod.fst (hmake.symm.trans hstops.make)
      refine ⟨before, file, cause, hstops.first, rfl, fun l hl => ?_, ?_⟩
      · rcases puts_deliverAll hstops.first.writable l with hsame | ⟨f, hf, hplace, _⟩
        · exact hsame
        · exact absurd hplace (hl f hf)
      · cases hstops.ends with
        | unlocated _ hlocate => exact .inl ⟨rfl, FileTree.refusedAt_locate hlocate⟩
        | folder hlocate => exact .inl ⟨rfl, .cause .isFolder (FileTree.locate_eq_ok.mp hlocate).1⟩
        | emptied f hlocate _ hfault =>
          rw [FileTree.contentFault?_congr
            (writesAt_deliverAll hstops.first.writable).surrogates] at hfault
          exact .inr ⟨f, hfault, rfl, hlocate, rfl⟩

/-- An output folder with a folder where the index is to go, and a run into it. -/
def blockedTree : FileTree :=
  { entries := [(⟨.above 0, ["out"]⟩, .folder), (⟨.above 0, ["out", "index.ts"]⟩, .folder)] }

def blockedRun : Activity Outcome :=
  run .ioTs [.object "A" "" [] []] ⟨some ⟨"", ["out"]⟩, none, none⟩

theorem blocked_interrupted :
    ∃ p before file cause w',
      Layout.ofDeclarations (Registry.defaults .ioTs).freeze none [.object "A" "" [] []] = .ok p ∧
      blockedRun.on ⟨blockedTree, []⟩ = (.error (fileFailure ⟨"", ["out"]⟩ file cause), w') ∧
      FirstStuck blockedTree ⟨"", ["out"]⟩ p.files before file ∧
      w'.tree = deliverAll ⟨"", ["out"]⟩ before blockedTree ∧
      (w'.tree.get? ⟨.above 0, ["out", "a.ts"]⟩).isSome = true := by
  obtain ⟨p, hplan⟩ : ∃ p,
      Layout.ofDeclarations (Registry.defaults .ioTs).freeze none [.object "A" "" [] []] = .ok p :=
    Layout.exists_plan (Target.isPlain_of_mem_all List.mem_cons_self) fun _ => by decide +kernel
  have hmake : blockedTree.ensureFolders ⟨"", ["out"]⟩ = (blockedTree, .ok ()) :=
    FileTree.ensureFolders_of_find rfl
  rcases hrun : blockedRun.on ⟨blockedTree, []⟩ with ⟨e | o, w'⟩
  · obtain ⟨_, before, file, cause, hfirst, rfl, _, hleft⟩ := run_interrupted (t := .ioTs)
      (w := ⟨blockedTree, []⟩) _ ⟨some ⟨"", ["out"]⟩, none, none⟩ List.mem_cons_self rfl hplan hmake
      hrun
    have hmodule : (((blockedRun.on ⟨blockedTree, []⟩).2.tree).get?
        ⟨.above 0, ["out", "a.ts"]⟩).isSome = true := by decide +kernel
    rw [hrun] at hmodule
    rcases hleft with ⟨htree, _⟩ | ⟨f, hfault, _⟩
    · exact ⟨p, before, file, cause, w', hplan, rfl, hfirst, htree, hmodule⟩
    · -- No character stands for a surrogate in this tree.
      cases hfault
  · have hfails : (blockedRun.on ⟨blockedTree, []⟩).1.isOk = false := by decide +kernel
    rw [hrun] at hfails
    cases hfails

/-- A declaration whose description has two surrogates, and a tree with its module. -/
def surrogateDeclarations : List Declaration := [.object "A" "\uE83D\uEE00" [] []]

def surrogateTree : FileTree where
  entries := [(⟨.above 0, ["out"]⟩, .folder), (⟨.above 0, ["out", "a.ts"]⟩, .file "old".toUTF8)]
  surrogates := some .privateUse

def surrogateRun : Activity Outcome :=
  run .ioTs surrogateDeclarations ⟨some ⟨"", ["out"]⟩, none, none⟩

/-- The size of a file. -/
def FileEntry.size? : FileEntry → Option Nat
  | .file content => some content.size
  | .folder => none

/-- The module is empty after the run. It was not so before, nor is it so after any of the planned files
have been written. -/
theorem surrogates_leave_empty_module :
    surrogateTree.ensureFolders ⟨"", ["out"]⟩ = (surrogateTree, .ok ()) ∧
    (surrogateRun.on ⟨surrogateTree, []⟩).1.isOk = false ∧
    ∃ p, Layout.ofDeclarations (Registry.defaults .ioTs).freeze none surrogateDeclarations = .ok p ∧
      ∀ k, (surrogateRun.on ⟨surrogateTree, []⟩).2.tree.get? ⟨.above 0, ["out", "a.ts"]⟩ ≠
        (deliverAll ⟨"", ["out"]⟩ (p.files.take k) surrogateTree).get? ⟨.above 0, ["out", "a.ts"]⟩ := by
  have hempty : ((surrogateRun.on ⟨surrogateTree, []⟩).2.tree.get?
      ⟨.above 0, ["out", "a.ts"]⟩).bind FileEntry.size? = some 0 := by decide +kernel
  have hprefixes : (Layout.ofDeclarations (Registry.defaults .ioTs).freeze none
      surrogateDeclarations).toOption.any (fun p => p.files.inits.all fun before =>
        ((deliverAll ⟨"", ["out"]⟩ before surrogateTree).get?
          ⟨.above 0, ["out", "a.ts"]⟩).bind FileEntry.size? != some 0) = true := by decide +kernel
  refine ⟨FileTree.ensureFolders_of_find rfl, by decide +kernel, ?_⟩
  cases hplan : Layout.ofDeclarations (Registry.defaults .ioTs).freeze none surrogateDeclarations with
  | error e =>
    rw [hplan] at hprefixes
    cases hprefixes
  | ok p =>
    rw [hplan] at hprefixes
    refine ⟨p, rfl, fun k hsame => ?_⟩
    have hfull := List.all_eq_true.mp hprefixes _ ((List.mem_inits _ _).mpr (List.take_prefix k p.files))
    rw [← hsame, hempty] at hfull
    cases hfull

end Generation
end SchemaCompiler
