import Mathlib.Data.List.Forall2
import SchemaCompiler.Generation
import SchemaCompiler.Proofs.Files.Tree
import SchemaCompiler.Proofs.Rendering.Patterns

/-!
What a run does to the file tree. It keeps or writes one planned file after the other, and however it
ends it has written at the places of planned files only.
-/
namespace SchemaCompiler

namespace Activity

variable {α β : Type} {x : Activity α} {f : α → Activity β} {w w' : World}
  {R : FileTree → FileTree → Prop}

/-- How an activity ends, and the world after it. -/
def on (x : Activity α) (w : World) : Except Failure α × World := x.run.run w

theorem exists_ok (h : (x.on w).1.isOk = true) : ∃ a w', x.on w = (.ok a, w') := by
  rcases hon : x.on w with ⟨_ | a, w'⟩
  · rw [hon] at h
    cases h
  · exact ⟨a, w', rfl⟩

theorem on_bind (x : Activity α) (f : α → Activity β) (w : World) : (x >>= f).on w =
    match x.on w with
    | (.ok a, w') => (f a).on w'
    | (.error e, w') => (.error e, w') := by
  change (match x.on w with | (result, w') => ExceptT.bindCont (fun a => f a) result w') = _
  rcases x.on w with ⟨_ | _, _⟩
  · rfl
  · rfl

theorem on_bind_eq_ok {b : β} : (x >>= f).on w = (.ok b, w') ↔
    ∃ a w₁, x.on w = (.ok a, w₁) ∧ (f a).on w₁ = (.ok b, w') := by
  rw [on_bind]
  rcases x.on w with ⟨_ | a, w₁⟩
  · exact ⟨fun h => (nomatch h), fun ⟨_, _, h, _⟩ => (nomatch h)⟩
  · exact ⟨fun h => ⟨a, w₁, rfl, h⟩, fun ⟨_, _, h, hf⟩ => by cases h; exact hf⟩

theorem on_get_bind (f : World → Activity β) (w : World) : (get >>= f).on w = (f w).on w := rfl

/-- Whatever the world, the trees before and after an activity are in a relation. -/
def Respects (R : FileTree → FileTree → Prop) (x : Activity α) : Prop :=
  ∀ w, R w.tree (x.on w).2.tree

variable [IsPreorder FileTree R]

theorem Respects.bind (hx : Respects R x)
    (hf : ∀ a w w', x.on w = (.ok a, w') → Respects R (f a)) : Respects R (x >>= f) := by
  intro w
  have hfirst := hx w
  rw [on_bind]
  rcases hon : x.on w with ⟨_ | a, w₁⟩
  · rwa [hon] at hfirst
  · rw [hon] at hfirst
    exact IsTrans.trans _ _ _ hfirst (hf a w w₁ hon w₁)

theorem respects_pure (a : α) : Respects R (pure a) := fun w => Std.Refl.refl w.tree

theorem respects_log (lines : List LogLine) : Respects R (log lines) := fun w => Std.Refl.refl w.tree

theorem respects_ofExcept {ε : Type} (g : ε → Failure) (result : Except ε α) :
    Respects R (ofExcept g result) := by
  cases result with
  | error e => exact fun w => Std.Refl.refl w.tree
  | ok a => exact respects_pure a

end Activity

namespace Generation

open Activity

variable {r : Registry} {t : Target} {ds : List Declaration} {options : Options} {p : Plan}
  {folder : Path} {file : PlannedFile} {files : List PlannedFile} {configFile : Option Path}
  {w w' : World} {R : FileTree → FileTree → Prop}

/-- What the writing of a planned file comes to: a file that is there is kept if asked for, or cannot be
looked up, or the file is written, as far as it can be. -/
inductive Writing (folder : Path) (file : PlannedFile) (t : FileTree) :
    Except Failure Bool → FileTree → Prop
  | kept (hkeep : file.overwrite = false) (hexists : t.exists? (file.path folder) = .ok true) :
      Writing folder file t (.ok false) t
  | written (t' : FileTree)
      (hnew : file.overwrite = true ∨ t.exists? (file.path folder) = .ok false)
      (hwrite : t.write (file.path folder) file.content = (t', .ok ())) :
      Writing folder file t (.ok true) t'
  | unseen (cause : FileError) (hexists : t.exists? (file.path folder) = .error cause) :
      Writing folder file t (.error (.file cause)) t
  | failed (t' : FileTree) (cause : FileError)
      (hnew : file.overwrite = true ∨ t.exists? (file.path folder) = .ok false)
      (hwrite : t.write (file.path folder) file.content = (t', .error cause)) :
      Writing folder file t (.error (cause.failure (file.path folder) .file)) t'

theorem keeping (folder : Path) (file : PlannedFile) (w : World) :
    ((keeps folder file).on w = (.ok true, w) ∧ file.overwrite = false ∧
      w.tree.exists? (file.path folder) = .ok true) ∨
    ((keeps folder file).on w = (.ok false, w) ∧
      (file.overwrite = true ∨ w.tree.exists? (file.path folder) = .ok false)) ∨
    ∃ cause, (keeps folder file).on w = (.error (.file cause), w) ∧ file.overwrite = false ∧
      w.tree.exists? (file.path folder) = .error cause := by
  rw [keeps]
  cases hkeep : file.overwrite with
  | true => exact .inr (.inl ⟨rfl, .inl rfl⟩)
  | false =>
    rw [if_neg Bool.false_ne_true, on_get_bind]
    cases hexists : w.tree.exists? (file.path folder) with
    | error cause => exact .inr (.inr ⟨cause, rfl, rfl, rfl⟩)
    | ok there =>
      cases there with
      | true => exact .inl ⟨rfl, rfl, rfl⟩
      | false => exact .inr (.inl ⟨rfl, .inr rfl⟩)

theorem overwriting (folder : Path) (file : PlannedFile) (w : World) :
    (∃ w', (overwrite folder file).on w = (.ok (), w') ∧
      w.tree.write (file.path folder) file.content = (w'.tree, .ok ())) ∨
    ∃ cause w', w.tree.write (file.path folder) file.content = (w'.tree, .error cause) ∧
      (overwrite folder file).on w = (.error (cause.failure (file.path folder) .file), w') := by
  rw [overwrite, on_get_bind]
  rcases hwrite : w.tree.write (file.path folder) file.content with ⟨tree, _ | _⟩
  · exact .inr ⟨_, { w with tree }, rfl, rfl⟩
  · exact .inl ⟨_, rfl, rfl⟩

theorem writing (folder : Path) (file : PlannedFile) (w : World) :
    Writing folder file w.tree ((write folder file).on w).1 ((write folder file).on w).2.tree := by
  rw [write, on_bind]
  rcases keeping folder file w with ⟨hon, hkeep, hexists⟩ | ⟨hon, hnew⟩ | ⟨cause, hon, _, hexists⟩
  · rw [hon]
    exact .kept hkeep hexists
  · rw [hon]
    dsimp only
    rw [if_neg Bool.false_ne_true, on_bind]
    rcases overwriting folder file w with ⟨w', hover, hwrite⟩ | ⟨cause, w', hwrite, hover⟩
    · rw [hover]
      exact .written _ hnew hwrite
    · rw [hover]
      exact .failed _ cause hnew hwrite
  · rw [hon]
    exact .unseen cause hexists

/-- The places of planned files. -/
def places (folder : Path) (files : List PlannedFile) (l : Location) : Prop :=
  ∃ file ∈ files, l = (file.path folder).location

theorem respects_write {P : Location → Prop} (h : P (file.path folder).location) :
    Respects (FileTree.WritesAt P) (write folder file) := by
  intro w
  have hstep := writing folder file w
  rcases hon : (write folder file).on w with ⟨result, w'⟩
  rw [hon] at hstep
  generalize htree : w'.tree = t' at hstep ⊢
  cases hstep with
  | kept => exact .refl _
  | written _ _ hwrite => exact FileTree.writesAt_write hwrite h
  | unseen => exact .refl _
  | failed _ _ _ hwrite => exact FileTree.writesAt_write hwrite h

theorem respects_writeAll_of_write [IsPreorder FileTree R]
    (h : ∀ file ∈ files, Respects R (write folder file)) : Respects R (writeAll folder files) := by
  induction files with
  | nil => exact respects_pure _
  | cons file rest ih =>
    obtain ⟨hfile, hrest⟩ := List.forall_mem_cons.mp h
    refine hfile.bind fun _ _ _ _ => ?_
    exact (ih hrest).bind fun _ _ _ _ => respects_pure _

/-- Files are written at their places only, also when not all of them can be. -/
theorem respects_writeAll {P : Location → Prop}
    (h : ∀ file ∈ files, P (file.path folder).location) :
    Respects (FileTree.WritesAt P) (writeAll folder files) :=
  respects_writeAll_of_write fun file hfile => respects_write (h file hfile)

/-- A file that was written is read back after all files have been written, if their places are
different. -/
theorem writeAll_reads {entries : List (Path × Bool)}
    (hplaces : (files.map fun f => (f.path folder).location).Nodup)
    (h : (writeAll folder files).on w = (.ok entries, w')) :
    List.Forall₂ (fun file entry => entry.1 = file.path folder ∧
      (entry.2 = true → w'.tree.read entry.1 = .ok file.content.toUTF8) ∧
      (entry.2 = false → file.overwrite = false)) files entries := by
  induction files generalizing w entries with
  | nil =>
    cases h
    exact .nil
  | cons file rest ih =>
    obtain ⟨hfile, hrest⟩ := List.nodup_cons.mp hplaces
    rw [writeAll, on_bind_eq_ok] at h
    obtain ⟨written, w₁, hwrite, h⟩ := h
    obtain ⟨more, w₂, hmore, h⟩ := on_bind_eq_ok.mp h
    cases h
    -- The writing of the others leaves the place of this one alone.
    have hothers : FileTree.WritesAt (places folder rest) w₁.tree w'.tree := by
      have hrespects : Respects (FileTree.WritesAt (places folder rest)) (writeAll folder rest) :=
        respects_writeAll fun f hf => ⟨f, hf, rfl⟩
      have hlater := hrespects w₁
      rwa [hmore] at hlater
    have hstep := writing folder file w
    rw [hwrite] at hstep
    refine .cons ⟨rfl, ?_, ?_⟩ (ih hrest hmore)
    · rintro rfl
      cases hstep with
      | written _ _ hwritten =>
        refine hothers.read (FileTree.read_write hwritten) ?_
        rintro ⟨f, hf, heq⟩
        exact hfile (List.mem_map.mpr ⟨f, hf, heq.symm⟩)
    · rintro rfl
      generalize w₁.tree = t₁ at hstep
      cases hstep with
      | kept hkeep => exact hkeep

/-- The making of the output folder, whether or not it can be made. -/
theorem on_createFolder (folder : Path) (w : World) : (createFolder folder).on w =
    ((w.tree.ensureFolders folder).2.mapError (·.failure folder .folder),
      { w with tree := (w.tree.ensureFolders folder).1 }) := by
  rw [createFolder, on_get_bind]
  rcases w.tree.ensureFolders folder with ⟨made, result⟩
  cases result with
  | ok _ => rfl
  | error cause => rfl

theorem respects_createFolder {P : Location → Prop} (folder : Path) :
    Respects (FileTree.WritesAt P) (createFolder folder) := by
  intro w
  rw [on_createFolder]
  exact FileTree.writesAt_ensureFolders w.tree folder

variable [IsPreorder FileTree R]

theorem respects_plan (r : Registry) (package : Option String) (ds : List Declaration) :
    Respects R (plan r package ds) := by
  refine (respects_log _).bind fun _ _ _ _ => ?_
  refine (respects_ofExcept _ _).bind fun _ _ _ _ => ?_
  exact (respects_log _).bind fun _ _ _ _ => respects_pure _

theorem plan_of_on {package : Option String} (h : (plan r package ds).on w = (.ok p, w')) :
    Layout.ofDeclarations r package ds = .ok p := by
  obtain ⟨_, _, _, h⟩ := on_bind_eq_ok.mp h
  obtain ⟨q, _, hq, h⟩ := on_bind_eq_ok.mp h
  obtain ⟨_, _, _, h⟩ := on_bind_eq_ok.mp h
  cases hplan : Layout.ofDeclarations r package ds with
  | error e =>
    rw [hplan] at hq
    cases hq
  | ok q =>
    rw [hplan] at hq
    cases hq
    cases h
    rfl

theorem respects_registry (t : Target) (configFile : Option Path) :
    Respects R (registry t configFile) := by
  cases configFile with
  | none => exact respects_pure _
  | some path =>
    refine Respects.bind (fun w => Std.Refl.refl w.tree) fun _ _ _ _ => ?_
    refine (respects_log _).bind fun _ _ _ _ => ?_
    exact (respects_ofExcept _ _).bind fun _ _ _ _ => respects_pure _

/-- The settings of a run are for its target. -/
theorem target_of_registry (h : (registry t configFile).on w = (.ok r, w')) : r.target = t := by
  cases configFile with
  | none =>
    cases h
    rfl
  | some path =>
    obtain ⟨_, _, _, h⟩ := on_bind_eq_ok.mp h
    obtain ⟨_, _, _, h⟩ := on_bind_eq_ok.mp h
    obtain ⟨_, _, _, h⟩ := on_bind_eq_ok.mp h
    cases h
    exact Registry.target_load _ _ _

/-- However a run ends, what holds of the making of the output folder and of the writing of each planned
file holds of the run. -/
theorem respects_emit_of_write (hfolder : Respects R (createFolder (outputFolder r options)))
    (hfiles : ∀ p, Layout.ofDeclarations r options.packageName ds = .ok p →
      ∀ file ∈ p.files, Respects R (write (outputFolder r options) file)) :
    Respects R (emit r ds options) := by
  refine (respects_plan _ _ _).bind fun p w w' hplan => ?_
  refine hfolder.bind fun _ _ _ _ => ?_
  refine (respects_writeAll_of_write (hfiles p (plan_of_on hplan))).bind fun _ _ _ _ => ?_
  exact (respects_log _).bind fun _ _ _ _ => respects_pure _

/-- However a run ends, it has written at the places of planned files only. -/
theorem respects_emit (r : Registry) (ds : List Declaration) (options : Options) :
    Respects (FileTree.WritesAt fun l => ∃ p,
      Layout.ofDeclarations r options.packageName ds = .ok p ∧
      places (outputFolder r options) p.files l) (emit r ds options) :=
  respects_emit_of_write (respects_createFolder _) fun p hp file hfile =>
    respects_write ⟨p, hp, file, hfile, rfl⟩

/-- Once the settings are read, a run is that under these settings. -/
theorem on_run (hr : (registry t options.configFile).on w = (.ok r, w')) :
    (run t ds options).on w = (emit r ds options).on w' := by
  rw [run, on_bind, hr]

theorem made_of_on (h : (createFolder folder).on w = (.ok (), w')) :
    w.tree.ensureFolders folder = (w'.tree, .ok ()) := by
  rw [on_createFolder] at h
  rcases hmade : w.tree.ensureFolders folder with ⟨made, result⟩
  rw [hmade] at h
  cases result with
  | ok _ =>
    cases h
    rfl
  | error cause => cases h

/-- A run that goes through has a plan, has made its folder, and has written or kept all its files. -/
theorem emitted {o : Outcome} (h : (emit r ds options).on w = (.ok o, w')) :
    ∃ p entries w₁ w₂, Layout.ofDeclarations r options.packageName ds = .ok p ∧
      w.tree.ensureFolders o.folder = (w₁.tree, .ok ()) ∧
      (writeAll o.folder p.files).on w₁ = (.ok entries, w₂) ∧ w₂.tree = w'.tree ∧
      o.folder = outputFolder r options ∧
      o.written = (entries.filter (·.2)).map (·.1) ∧
      o.skipped = (entries.filter (!·.2)).map (·.1) := by
  obtain ⟨p, wplan, hplan, h⟩ := on_bind_eq_ok.mp h
  obtain ⟨_, w₁, hfolder, h⟩ := on_bind_eq_ok.mp h
  obtain ⟨entries, w₂, hentries, h⟩ := on_bind_eq_ok.mp h
  obtain ⟨_, _, hlog, h⟩ := on_bind_eq_ok.mp h
  cases hlog
  cases h
  have hmade := made_of_on hfolder
  have hsame : wplan.tree = w.tree := by
    have hrespects := respects_plan (R := Eq) r options.packageName ds w
    rw [hplan] at hrespects
    exact hrespects.symm
  rw [hsame] at hmade
  exact ⟨p, entries, w₁, w₂, plan_of_on hplan, hmade, hentries, rfl, rfl, rfl, rfl⟩

/-- After a run that goes through, what was planned is read back at the paths that were written, if
the planned files have different places. -/
theorem emitted_reads {o : Outcome} (h : (emit r ds options).on w = (.ok o, w'))
    (hplan : Layout.ofDeclarations r options.packageName ds = .ok p)
    (hplaces : (p.files.map fun f => (f.path o.folder).location).Nodup) :
    (∀ f ∈ p.files, f.overwrite = true → f.path o.folder ∈ o.written) ∧
      ∀ path ∈ o.written, ∃ f ∈ p.files, path = f.path o.folder ∧
        w'.tree.read path = .ok f.content.toUTF8 := by
  obtain ⟨q, entries, w₁, w₂, hq, _, hentries, htree, _, hwritten, _⟩ := emitted h
  obtain rfl : p = q := Except.ok.inj (hplan.symm.trans hq)
  have hreads := writeAll_reads hplaces hentries
  rw [htree] at hreads
  rw [hwritten]
  refine ⟨fun f hf hover => ?_, fun path hpath => ?_⟩
  · obtain ⟨entry, hentry, hpath, _, hkept⟩ := Text.exists_right_of_mem hreads hf
    refine List.mem_map.mpr ⟨entry, List.mem_filter.mpr ⟨hentry, ?_⟩, hpath⟩
    by_contra hfalse
    rw [hkept (by simpa using hfalse)] at hover
    cases hover
  · obtain ⟨entry, hentry, rfl⟩ := List.mem_map.mp hpath
    obtain ⟨hentry, htrue⟩ := List.mem_filter.mp hentry
    obtain ⟨f, hf, hpath, hread, _⟩ := Text.exists_left_of_mem hreads hentry
    exact ⟨f, hf, hpath, hread htrue⟩

end Generation
end SchemaCompiler
