import SchemaCompiler.Proofs.Generation.Interruption

/-!
What a run reports that cannot write. It names the output folder, or the first planned file that could not
be written, when the file system refuses it. Other failures are passed on without this name: something is
the matter with the path of the folder or of a file, the content of a file cannot be encoded, or the path of
a manifest is too long to be looked up.
-/
namespace SchemaCompiler

namespace Generation

open Activity

variable {t : Target} {r : Registry} {ds : List Declaration} {options : Options} {p : Plan}
  {folder : Path} {file : PlannedFile} {files before : List PlannedFile} {tree made after : FileTree}
  {w : World} {cause : FileError} {result : Except Failure Outcome}

/-- What a run with a plan reports. -/
inductive Reported (folder : Path) (files : List PlannedFile) (tree : FileTree) :
    Except Failure Outcome → Prop
  | done (o : Outcome) (hall : Deliverable tree folder files) : Reported folder files tree (.ok o)
  | noFolder (made : FileTree) (cause : PathCause) (path : String)
      (hmake : tree.ensureFolders folder = (made, .error (.refused cause path)))
      (hfit : tree.pathFault? folder = none) :
      Reported folder files tree (.error (.write ⟨folder.text, .folder (.refused cause path)⟩))
  | unfitFolder (made : FileTree) (cause : FileError)
      (hmake : tree.ensureFolders folder = (made, .error cause))
      (hunfit : tree.pathFault? folder = some cause) :
      Reported folder files tree (.error (.file cause))
  | noFile (made : FileTree) (before : List PlannedFile) (file : PlannedFile) (cause : PathCause)
      (after : FileTree) (hstops : Stops folder files tree made before file
        (.refused cause (file.path folder).text) after)
      (hreplaces : file.overwrite = true) (hfit : tree.pathFault? (file.path folder) = none) :
      Reported folder files tree
        (.error (.write ⟨(file.path folder).text, .file (.refused cause (file.path folder).text)⟩))
  | unfitFile (made : FileTree) (before : List PlannedFile) (file : PlannedFile) (cause : FileError)
      (after : FileTree) (hstops : Stops folder files tree made before file cause after)
      (hreplaces : file.overwrite = true) (hunfit : tree.pathFault? (file.path folder) = some cause) :
      Reported folder files tree (.error (.file cause))
  | unencoded (made : FileTree) (before : List PlannedFile) (file : PlannedFile)
      (f : Text.EncodeFault) (after : FileTree)
      (hstops : Stops folder files tree made before file (.notEncodable f) after)
      (hfault : tree.contentFault? file.content = some f) :
      Reported folder files tree (.error (.file (.notEncodable f)))
  | longManifest (made : FileTree) (before : List PlannedFile) (file : PlannedFile)
      (after : FileTree) (hstops : Stops folder files tree made before file
        (.refused .nameTooLong (file.path folder).text) after)
      (hkeeps : file.overwrite = false)
      (hlong : FileTree.pathLimit < (file.path folder).text.utf8ByteSize) :
      Reported folder files tree (.error (.file (.refused .nameTooLong (file.path folder).text)))

/-- Something is the matter with a path, and the run passes it on. -/
theorem failure_of_unfit {path : Path} (h : tree.pathFault? path = some cause)
    (report : FileError → WriteCause) : cause.failure path report = .file cause := by
  cases cause with
  | refused => exact absurd h FileTree.pathFault?_ne_refused
  | nulCharacter | notEncodable => rfl

theorem fileFailure_of_overwrite (h : file.overwrite = true) :
    fileFailure folder file cause = cause.failure (file.path folder) .file := by
  rw [fileFailure, if_neg]
  rintro ⟨hkeeps, _⟩
  rw [h] at hkeeps
  cases hkeeps

theorem Stops.surrogates (h : Stops folder files tree made before file cause after) :
    (deliverAll folder before made).surrogates = tree.surrogates := by
  have hfolders := FileTree.writesAt_ensureFolders (P := fun _ => True) tree folder
  rw [h.make] at hfolders
  exact (writesAt_deliverAll h.first.writable).surrogates.trans hfolders.surrogates

theorem reported_of_overwrite (h : Stops folder files tree made before file cause after)
    (hover : file.overwrite = true) :
    Reported folder files tree (.error (fileFailure folder file cause)) := by
  rw [fileFailure_of_overwrite hover]
  have hpath := FileTree.pathFault?_congr h.surrogates (file.path folder)
  have hends := h.ends
  cases hends with
  | unlocated _ hlocate =>
    cases FileTree.refusedAt_locate hlocate with
    | unfit _ hunfit =>
      rw [failure_of_unfit hunfit]
      exact .unfitFile made before file cause _ h hover (hpath ▸ hunfit)
    | cause cause hfit => exact .noFile made before file cause _ h hover (hpath ▸ hfit)
  | folder hlocate =>
    exact .noFile made before file .isFolder _ h hover (hpath ▸ (FileTree.locate_eq_ok.mp hlocate).1)
  | emptied f _ _ hfault =>
    rw [FileTree.contentFault?_congr h.surrogates] at hfault
    exact .unencoded made before file f _ h hfault

/-- Inside a folder that was made, a manifest is stuck only for the length of its path or for its
content. -/
theorem reported_of_manifest (h : Stops folder files tree made before file cause after)
    (hkeeps : file.overwrite = false) (hname : file.name = Layout.manifestName) :
    Reported folder files tree (.error (fileFailure folder file cause)) := by
  have hmade : made.find folder = .ok .folder := FileTree.find_ensureFolders h.make
  have hlater : (deliverAll folder before made).find folder = .ok .folder := by
    obtain ⟨hlocate, hentry⟩ := FileTree.find_eq_ok.mp hmade
    have hwrites := writesAt_deliverAll h.first.writable
    exact FileTree.find_eq_ok.mpr ⟨hwrites.locate hlocate, hwrites.folder hentry⟩
  by_cases hlong : FileTree.pathLimit < (file.path folder).text.utf8ByteSize
  · have hfit : (deliverAll folder before made).pathFault? (file.path folder) = none := by
      obtain ⟨hlocate, _⟩ := FileTree.find_eq_ok.mp hlater
      rw [path_of_manifest hname]
      exact FileTree.pathFault?_inside (FileTree.locate_eq_ok.mp hlocate).1 fits_manifestName
    have hfails := FileTree.locate_of_long hfit hlong
    have hends := h.ends
    cases hends with
    | unlocated _ hlocate =>
      obtain rfl := Except.error.inj (hlocate.symm.trans hfails)
      rw [fileFailure, if_pos ⟨hkeeps, rfl⟩]
      exact .longManifest made before file _ h hkeeps hlong
    | folder hlocate | emptied _ hlocate =>
      rw [hfails] at hlocate
      cases hlocate
  · have hshort := Nat.not_lt.mp hlong
    have hinside {t : FileTree} (hfind : t.find folder = .ok .folder) :
        t.locate (file.path folder) = .ok (file.path folder).location :=
      FileTree.locate_inside hfind fits_manifestName (by decide) (path_of_manifest hname) hshort
    have hends := h.ends
    cases hends with
    | unlocated _ hlocate =>
      rw [hinside hlater] at hlocate
      cases hlocate
    | folder _ hfolder =>
      -- A folder in the place of the manifest is kept.
      rcases puts_deliverAll h.first.writable (file.path folder).location with
        hsame | ⟨_, _, _, hput⟩
      · rw [hsame] at hfolder
        have hkept := Option.isSome_of_eq_some hfolder
        exact absurd (writable_iff.mpr ⟨hinside hmade, .inl ⟨hkeeps, hkept⟩⟩) h.first.stuck
      · rw [hput] at hfolder
        cases hfolder
    | emptied f _ _ hfault =>
      rw [FileTree.contentFault?_congr h.surrogates] at hfault
      rw [fileFailure, if_neg fun hlong => FileError.noConfusion hlong.2]
      exact .unencoded made before file f _ h hfault

theorem run_reports (ds : List Declaration) (options : Options) (ht : t ∈ Target.all)
    (hsettings : settings? w.tree t options.configFile = .ok r)
    (hplan : Layout.ofDeclarations r options.packageName ds = .ok p) :
    Reported (outputFolder r options) p.files w.tree ((run t ds options).on w).1 := by
  have hmanifest : ∀ f ∈ p.files, f.overwrite = false → f.name = Layout.manifestName := by
    obtain ⟨vs, hvs⟩ := Layout.exists_planned hplan
    obtain ⟨sources, hfiles, hsources⟩ := hvs.exists_sources (hasExtension_of_settings? hsettings)
    intro f hf hkeeps
    rw [hfiles] at hf
    rcases List.mem_append.mp hf with hf | hf
    · obtain ⟨hreplaces, _⟩ := hsources f hf
      rw [hkeeps] at hreplaces
      cases hreplaces
    · exact (Layout.mem_manifests hf).2
  have hend := run_ended ds ht hsettings hplan
  generalize ((run t ds options).on w).1 = result at hend ⊢
  generalize ((run t ds options).on w).2.tree = after at hend
  cases hend with
  | noFolder _ cause hmake =>
    rcases FileTree.ensureFolders_eq_error (congrArg Prod.snd hmake) with
      hunfit | ⟨hfit, cause, path, rfl⟩
    · rw [failure_of_unfit hunfit]
      exact .unfitFolder _ cause hmake hunfit
    · exact .noFolder _ cause path hmake hfit
  | stuck made before file cause after hstops =>
    have hfile : file ∈ p.files :=
      hstops.first.leads.subset (List.mem_append_right _ List.mem_cons_self)
    cases hover : file.overwrite with
    | true => exact reported_of_overwrite hstops hover
    | false => exact reported_of_manifest hstops hover (hmanifest file hfile hover)
  | done _ o hmake hall =>
    refine .done o ⟨?_, ?_⟩
    · rw [hmake]
    · rw [hmake]
      exact hall

/-- The path that a failed run reports. -/
def reportedPath : Except Failure Outcome → Option String
  | .error (.write e) => some e.path
  | _ => none

theorem blocked_reported :
    ∃ p, Layout.ofDeclarations (Registry.defaults .ioTs).freeze none [.object "A" "" [] []] = .ok p ∧
      Reported ⟨"", ["out"]⟩ p.files blockedTree (blockedRun.on ⟨blockedTree, []⟩).1 ∧
      reportedPath (blockedRun.on ⟨blockedTree, []⟩).1 = some "out/index.ts" := by
  obtain ⟨p, hplan⟩ : ∃ p,
      Layout.ofDeclarations (Registry.defaults .ioTs).freeze none [.object "A" "" [] []] = .ok p :=
    Layout.exists_plan (Target.isPlain_of_mem_all List.mem_cons_self) fun _ => by decide +kernel
  have hreports := run_reports (t := .ioTs) (w := ⟨blockedTree, []⟩) _
    ⟨some ⟨"", ["out"]⟩, none, none⟩ List.mem_cons_self rfl hplan
  exact ⟨p, hplan, hreports, by decide +kernel⟩

/-- A declaration whose name has a null character. -/
def nulled : List Declaration := [.object "a\x00b" "" [] []]

def nulledRun : Activity Outcome := run .ioTs nulled ⟨some ⟨"", ["out"]⟩, none, none⟩

/-- Neither a null character in a name nor surrogates in a description are reported with a path. -/
theorem null_and_surrogates_unreported :
    ((∃ p, Layout.ofDeclarations (Registry.defaults .ioTs).freeze none nulled = .ok p) ∧
      (nulledRun.on ⟨.empty, []⟩).1.isOk = false ∧
      reportedPath (nulledRun.on ⟨.empty, []⟩).1 = none) ∧
    (∃ p, Layout.ofDeclarations (Registry.defaults .ioTs).freeze none surrogateDeclarations = .ok p) ∧
      (surrogateRun.on ⟨surrogateTree, []⟩).1.isOk = false ∧
      reportedPath (surrogateRun.on ⟨surrogateTree, []⟩).1 = none := by
  refine ⟨⟨?_, by decide +kernel, by decide +kernel⟩, ?_, by decide +kernel, by decide +kernel⟩
  · exact Layout.exists_plan (Target.isPlain_of_mem_all List.mem_cons_self) fun _ => by decide +kernel
  · exact Layout.exists_plan (Target.isPlain_of_mem_all List.mem_cons_self) fun _ => by decide +kernel

end Generation
end SchemaCompiler
