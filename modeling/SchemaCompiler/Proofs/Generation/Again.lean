import Mathlib.Data.List.Induction
import SchemaCompiler.Proofs.Files.Way
import SchemaCompiler.Proofs.Generation.Manifest

/-!
Runs that are repeated. A run puts files at their places one after the other, and what comes last to a
place stays. The same run on the tree that it left puts the same files there in the same order, and so
changes nothing. It has the same settings unless the first run wrote the configuration file, or made a
folder on the way of one that was missing.
-/
namespace SchemaCompiler

section Settings

variable {t t' : FileTree} {c : Path} {P : Location → Prop}

/-- A configuration that was read is read again, as long as one that was missing is still missing. -/
theorem Source.config_again {found : Option Config.Document} (h : FileTree.WritesAt P t t')
    (hmissing : t.exists? c = .ok false → t'.exists? c = .ok false) (hplace : ¬ P c.location)
    (hfound : config t c = .ok found) : config t' c = .ok found := by
  rw [config] at hfound ⊢
  cases hexists : t.exists? c with
  | error e =>
    rw [hexists] at hfound
    cases hfound
  | ok there =>
    rw [hexists] at hfound
    cases there with
    | false =>
      rw [hmissing hexists]
      exact hfound
    | true =>
      dsimp only at hfound
      rw [document] at hfound
      cases hread : t.read c with
      | error e =>
        rw [hread] at hfound
        cases hfound
      | ok content =>
        have hread' := h.read hread hplace
        have hexists' : t'.exists? c = .ok true := by
          obtain ⟨hlocate, hentry⟩ := FileTree.read_eq_ok.mp hread'
          exact FileTree.exists?_eq_true.mpr ⟨hlocate, Option.isSome_of_eq_some hentry⟩
        rw [hexists', document, hread']
        rw [hread] at hfound
        exact hfound

theorem Generation.settings?_again {target : Target} {configFile : Option Path} {r : Registry}
    (h : FileTree.WritesAt P t t')
    (hconfig : ∀ c ∈ configFile,
      (t.exists? c = .ok false → t'.exists? c = .ok false) ∧ ¬ P c.location)
    (hsettings : settings? t target configFile = .ok r) : settings? t' target configFile = .ok r := by
  cases configFile with
  | none => exact hsettings
  | some c =>
    obtain ⟨hmissing, hplace⟩ := hconfig c rfl
    cases hfound : Source.config t c with
    | error e =>
      rw [settings?, Registry.load, hfound] at hsettings
      cases hsettings
    | ok found =>
      have hagain := Source.config_again h hmissing hplace hfound
      rw [settings?, Registry.load, hagain, ← hfound]
      exact hsettings

end Settings

namespace Generation

open Activity

variable {t t' : FileTree} {target : Target} {r : Registry} {ds : List Declaration}
  {options : Options} {p : Plan} {folder q : Path} {l : Location} {e : FileEntry}
  {file : PlannedFile} {files : List PlannedFile} {entries : List (Path × Bool)} {w w' : World}

/-- A tree with files put at their places, one after the other. -/
def putAll (folder : Path) (files : List PlannedFile) (t : FileTree) : FileTree :=
  files.foldl (fun t f => t.insert (f.path folder).location (.file f.content.toUTF8)) t

theorem mem_places_putAll (hl : l ∈ t.places) : l ∈ (putAll folder files t).places := by
  induction files generalizing t with
  | nil => exact hl
  | cons f rest ih => exact ih ((FileTree.mem_places_insert _).mpr (.inr hl))

theorem place_mem_putAll (hfile : file ∈ files) :
    (file.path folder).location ∈ (putAll folder files t).places := by
  induction files generalizing t with
  | nil => cases hfile
  | cons f rest ih =>
    rcases List.mem_cons.mp hfile with rfl | hrest
    · have hnew : (file.path folder).location ∈
          (t.insert (file.path folder).location (.file file.content.toUTF8)).places :=
        (FileTree.mem_places_insert _).mpr (.inl rfl)
      rw [putAll, List.foldl_cons]
      exact mem_places_putAll hnew
    · exact ih hrest

/-- An entry at another place may come before files or after them, once these have their places. -/
theorem putAll_insert (hplaces : ∀ f ∈ files, (f.path folder).location ∈ t.places)
    (hl : ∀ f ∈ files, (f.path folder).location ≠ l) :
    putAll folder files (t.insert l e) = (putAll folder files t).insert l e := by
  induction files generalizing t with
  | nil => rfl
  | cons f rest ih =>
    obtain ⟨hplace, hrest⟩ := List.forall_mem_cons.mp hplaces
    obtain ⟨hne, hothers⟩ := List.forall_mem_cons.mp hl
    rw [putAll, List.foldl_cons, ← FileTree.insert_comm hne hplace]
    exact ih (fun g hg => (FileTree.mem_places_insert _).mpr (.inr (hrest g hg))) hothers

/-- An entry that comes to its place again after some files need not have been there before. -/
theorem insert_putAll_insert (hplaces : ∀ f ∈ files, (f.path folder).location ∈ t.places) :
    (putAll folder files (t.insert l e)).insert l e = (putAll folder files t).insert l e := by
  induction files generalizing t with
  | nil => exact FileTree.insert_insert t l e e
  | cons f rest ih =>
    obtain ⟨hplace, hrest⟩ := List.forall_mem_cons.mp hplaces
    rw [putAll, putAll, List.foldl_cons, List.foldl_cons]
    by_cases hne : (f.path folder).location = l
    · rw [hne, FileTree.insert_insert]
    · rw [← FileTree.insert_comm hne hplace]
      exact ih fun g hg => (FileTree.mem_places_insert _).mpr (.inr (hrest g hg))

/-- Files that have been put at their places are put there again without a change, also when those are
left out that are to be kept and have places of their own. -/
theorem putAll_again (hapart : ∀ f ∈ files, ∀ g ∈ files, f.overwrite = true → g.overwrite = false →
      (f.path folder).location ≠ (g.path folder).location) :
    putAll folder (files.filter (·.overwrite)) (putAll folder files t) = putAll folder files t := by
  induction files using List.reverseRecOn with
  | nil => rfl
  | append_singleton files g ih =>
    have hg : g ∈ files ++ [g] := List.mem_append_right _ (List.mem_singleton_self g)
    have hfiles : ∀ f ∈ files, f ∈ files ++ [g] := fun f hf => List.mem_append_left _ hf
    have hbefore := ih fun f hf f' hf' => hapart f (hfiles f hf) f' (hfiles f' hf')
    have hplaces : ∀ f ∈ files.filter (·.overwrite),
        (f.path folder).location ∈ (putAll folder files t).places :=
      fun f hf => place_mem_putAll (List.mem_of_mem_filter hf)
    have hlast : putAll folder (files ++ [g]) t =
        (putAll folder files t).insert (g.path folder).location (.file g.content.toUTF8) :=
      List.foldl_append
    rw [hlast, List.filter_append, List.filter_singleton]
    cases hover : g.overwrite with
    | true =>
      have hagain := insert_putAll_insert (l := (g.path folder).location)
        (e := .file g.content.toUTF8) hplaces
      rw [hbefore] at hagain
      rw [cond_true, putAll, List.foldl_append]
      exact hagain
    | false =>
      rw [cond_false, List.append_nil, putAll_insert hplaces, hbefore]
      intro f hf
      obtain ⟨hf, hreplaces⟩ := List.mem_filter.mp hf
      exact hapart f (hfiles f hf) g hg hreplaces hover

/-- The steps by which files are written: each is kept or comes to its place. -/
inductive Wrote (folder : Path) : List PlannedFile → List (Path × Bool) → FileTree → FileTree → Prop
  | done (t : FileTree) : Wrote folder [] [] t t
  | kept {file : PlannedFile} {files : List PlannedFile} {entries : List (Path × Bool)}
      {t t' : FileTree} (hkeep : file.overwrite = false)
      (hexists : t.exists? (file.path folder) = .ok true) (hrest : Wrote folder files entries t t') :
      Wrote folder (file :: files) ((file.path folder, false) :: entries) t t'
  | written {file : PlannedFile} {files : List PlannedFile} {entries : List (Path × Bool)}
      {t t₁ t' : FileTree}
      (hwrite : t.write (file.path folder) file.content = (t₁, .ok ()))
      (hrest : Wrote folder files entries t₁ t') :
      Wrote folder (file :: files) ((file.path folder, true) :: entries) t t'

theorem wrote_of_on (h : (writeAll folder files).on w = (.ok entries, w')) :
    Wrote folder files entries w.tree w'.tree := by
  induction files generalizing w entries with
  | nil =>
    cases h
    exact .done _
  | cons file rest ih =>
    obtain ⟨written, w₁, hwrite, h⟩ := on_bind_eq_ok.mp h
    obtain ⟨more, w₂, hmore, h⟩ := on_bind_eq_ok.mp h
    cases h
    have hrest := ih hmore
    have hstep := writing folder file w
    rw [hwrite] at hstep
    generalize w₁.tree = t₁ at hstep hrest
    cases hstep with
    | kept hkeep hexists => exact .kept hkeep hexists hrest
    | written _ _ hwrite => exact .written hwrite hrest

/-- The places of the paths that were written. -/
def writtenPlaces (entries : List (Path × Bool)) (l : Location) : Prop :=
  ∃ path, (path, true) ∈ entries ∧ l = path.location

theorem Wrote.writesAt (h : Wrote folder files entries t t') :
    FileTree.WritesAt (writtenPlaces entries) t t' := by
  have hmono {more : List (Path × Bool)} {entry : Path × Bool} (l : Location) :
      writtenPlaces more l → writtenPlaces (entry :: more) l :=
    fun ⟨path, hpath, hl⟩ => ⟨path, List.mem_cons_of_mem _ hpath, hl⟩
  induction h with
  | done t => exact .refl t
  | kept _ _ _ ih => exact ih.mono hmono
  | written hwrite _ ih =>
    refine FileTree.WritesAt.trans ?_ (ih.mono hmono)
    exact FileTree.writesAt_write hwrite ⟨_, List.mem_cons_self, rfl⟩

/-- What was written is a part of the files, and has all of those that replace what is there. -/
theorem Wrote.exists_putAll (h : Wrote folder files entries t t') : ∃ new, t' = putAll folder new t ∧
    new ⊆ files ∧ new.filter (·.overwrite) = files.filter (·.overwrite) := by
  induction h with
  | done t => exact ⟨[], rfl, List.Subset.refl _, rfl⟩
  | kept hkeep _ _ ih =>
    obtain ⟨new, htree, hnew, hfilter⟩ := ih
    refine ⟨new, htree, fun f hf => List.mem_cons_of_mem _ (hnew hf), ?_⟩
    rw [hfilter, List.filter_cons, hkeep, if_neg Bool.false_ne_true]
  | @written file files entries t t₁ t' hwrite _ ih =>
    obtain ⟨new, htree, hnew, hfilter⟩ := ih
    refine ⟨file :: new, ?_, List.cons_subset_cons _ hnew, ?_⟩
    · obtain ⟨_, _, _, rfl⟩ := FileTree.write_eq_ok.mp hwrite
      exact htree
    · rw [List.filter_cons, List.filter_cons, hfilter]

/-- A planned file can be written again: its path leads to something, which is a file and takes the content
if it is to be replaced. -/
def Settled (t : FileTree) (folder : Path) (file : PlannedFile) : Prop :=
  ∃ e, t.find (file.path folder) = .ok e ∧
    (file.overwrite = true → e ≠ .folder ∧ t.contentFault? file.content = none)

theorem Settled.of_writesAt {P : Location → Prop} (h : Settled t folder file)
    (hwrites : FileTree.WritesAt P t t') : Settled t' folder file := by
  obtain ⟨e, hfind, hfile⟩ := h
  obtain ⟨hlocate, hentry⟩ := FileTree.find_eq_ok.mp hfind
  have hlater := hwrites.locate hlocate
  rw [← FileTree.contentFault?_congr hwrites.surrogates] at hfile
  cases e with
  | folder => exact ⟨_, FileTree.find_eq_ok.mpr ⟨hlater, hwrites.folder hentry⟩, hfile⟩
  | file content =>
    obtain ⟨content', hentry'⟩ := hwrites.isFile hentry
    exact ⟨_, FileTree.find_eq_ok.mpr ⟨hlater, hentry'⟩, fun hover => ⟨nofun, (hfile hover).2⟩⟩

theorem Wrote.settled (h : Wrote folder files entries t t') : ∀ f ∈ files, Settled t' folder f := by
  induction h with
  | done t => exact nofun
  | @kept file files entries t t' hkeep hexists hrest ih =>
    refine List.forall_mem_cons.mpr ⟨?_, ih⟩
    obtain ⟨hlocate, hentry⟩ := FileTree.exists?_eq_true.mp hexists
    obtain ⟨e, he⟩ := Option.isSome_iff_exists.mp hentry
    have hthere : Settled t folder file :=
      ⟨e, FileTree.find_eq_ok.mpr ⟨hlocate, he⟩, fun hreplaces => by simp [hkeep] at hreplaces⟩
    exact hthere.of_writesAt hrest.writesAt
  | @written file files entries t t₁ t' hwrite hrest ih =>
    refine List.forall_mem_cons.mpr ⟨?_, ih⟩
    have hread := FileTree.read_eq_ok.mp (FileTree.read_write hwrite)
    obtain ⟨_, _, hencodes, rfl⟩ := FileTree.write_eq_ok.mp hwrite
    have hthere : Settled _ folder file :=
      ⟨_, FileTree.find_eq_ok.mpr hread, fun _ => ⟨nofun, hencodes⟩⟩
    exact hthere.of_writesAt hrest.writesAt

theorem write_of_settled (h : Settled w.tree folder file) :
    ∃ w', (write folder file).on w = (.ok file.overwrite, w') ∧
      w'.tree = if file.overwrite then
        w.tree.insert (file.path folder).location (.file file.content.toUTF8) else w.tree := by
  obtain ⟨e, hfind, hfile⟩ := h
  obtain ⟨hlocate, hentry⟩ := FileTree.find_eq_ok.mp hfind
  rw [write, on_bind, on_keeps hlocate, hentry]
  cases hover : file.overwrite with
  | false => exact ⟨_, rfl, rfl⟩
  | true =>
    obtain ⟨hnofolder, hencodes⟩ := hfile hover
    have hfolder : w.tree.get? (file.path folder).location ≠ some .folder := by
      rw [hentry]
      exact fun heq => hnofolder (Option.some.inj heq)
    obtain ⟨w', hwrite, htree⟩ :=
      on_overwrite (FileTree.write_eq_ok.mpr ⟨hlocate, hfolder, hencodes, rfl⟩)
    refine ⟨w', ?_, htree⟩
    change ((overwrite folder file >>= fun _ => pure true) : Activity Bool).on w = _
    rw [on_bind, hwrite]
    rfl

/-- Files that can be written again are: those that replace what is there come to their places, and the
others are kept. -/
theorem writeAll_of_settled (h : ∀ f ∈ files, Settled w.tree folder f) :
    ∃ w', (writeAll folder files).on w =
        (.ok (files.map fun f => (f.path folder, f.overwrite)), w') ∧
      w'.tree = putAll folder (files.filter (·.overwrite)) w.tree := by
  induction files generalizing w with
  | nil => exact ⟨w, rfl, rfl⟩
  | cons file rest ih =>
    obtain ⟨hfile, hrest⟩ := List.forall_mem_cons.mp h
    obtain ⟨w₁, hon, htree⟩ := write_of_settled hfile
    have hwrites : FileTree.WritesAt (fun _ => True) w.tree w₁.tree := by
      have hrespects : Respects (FileTree.WritesAt fun _ => True) (write folder file) :=
        respects_write trivial
      have hstep := hrespects w
      rwa [hon] at hstep
    obtain ⟨w₂, hmore, hend⟩ := ih fun f hf => (hrest f hf).of_writesAt hwrites
    refine ⟨w₂, ?_, ?_⟩
    · rw [writeAll, on_bind, hon]
      dsimp only
      rw [on_bind, hmore]
      rfl
    · rw [hend, htree, List.filter_cons]
      split
      · rfl
      · rfl

/-- After a run that goes through, its folder is there and its files are written. -/
theorem run_wrote {o : Outcome} (h : (run target ds options).on w = (.ok o, w')) :
    ∃ r p entries made, settings? w.tree target options.configFile = .ok r ∧
      Layout.ofDeclarations r options.packageName ds = .ok p ∧
      w.tree.ensureFolders o.folder = (made, .ok ()) ∧ Wrote o.folder p.files entries made w'.tree ∧
      o.folder = outputFolder r options ∧ o.written = (entries.filter (·.2)).map (·.1) := by
  obtain ⟨r, p, entries, w₁, w₂, hsettings, hplan, hmade, hwrites, htree, ho, hwritten, _⟩ :=
    run_emitted h
  exact ⟨r, p, entries, w₁.tree, hsettings, hplan, hmade, htree ▸ wrote_of_on hwrites, ho, hwritten⟩

theorem writtenPlaces_iff : writtenPlaces entries l ↔
    ∃ path ∈ (entries.filter (·.2)).map (·.1), l = path.location := by
  simp [writtenPlaces]

/-- Under the settings of a run that went through, a run on the tree that it left changes nothing. -/
theorem emit_again {made : FileTree} (hplan : Layout.ofDeclarations r options.packageName ds = .ok p)
    (hspares : ∀ f ∈ p.files, Spares (outputFolder r options) q f)
    (hmade : t.ensureFolders (outputFolder r options) = (made, .ok ()))
    (hwrote : Wrote (outputFolder r options) p.files entries made w.tree) :
    ∃ o w', (emit r ds options).on w = (.ok o, w') ∧ w'.tree = w.tree ∧
      o.folder = outputFolder r options ∧
      o.skipped = (p.files.filter (!·.overwrite)).map (·.path o.folder) := by
  obtain ⟨w₁, hon, htree⟩ := on_plan r options.packageName ds w
  rw [hplan] at hon
  change _ = (Except.ok p, w₁) at hon
  have hfolder : w₁.tree.find (outputFolder r options) = .ok .folder := by
    obtain ⟨hlocate, hentry⟩ := FileTree.find_eq_ok.mp (FileTree.find_ensureFolders hmade)
    rw [htree]
    exact FileTree.find_eq_ok.mpr
      ⟨hwrote.writesAt.locate hlocate, hwrote.writesAt.folder hentry⟩
  have hagain := FileTree.ensureFolders_of_find hfolder
  obtain ⟨w₂, hwrite, hend⟩ := writeAll_of_settled (w := w₁) (htree ▸ hwrote.settled)
  -- What is written is what came to its place before.
  have hsame : w₂.tree = w.tree := by
    obtain ⟨new, hnew, hsub, hfilter⟩ := hwrote.exists_putAll
    rw [hend, htree, ← hfilter, hnew]
    exact putAll_again fun f hf g hg => (hspares f (hsub hf)).apart (hspares g (hsub hg))
  rw [emit, on_bind, hon]
  dsimp only
  rw [on_bind, on_createFolder, hagain]
  dsimp only [Except.mapError]
  rw [on_bind, hwrite]
  exact ⟨⟨_, _, _, _, _, _⟩, _, rfl, hsame, rfl, map_fst_filter not _ _⟩

/-- All that a run changes is what it writes and the folders that it makes. -/
theorem run_writesAt {o : Outcome} (h : (run target ds options).on w = (.ok o, w')) :
    FileTree.WritesAt (fun l => ∃ path ∈ o.written, l = path.location) w.tree w'.tree := by
  obtain ⟨_, _, entries, made, _, _, hmade, hwrote, _, hwritten⟩ := run_wrote h
  have hfolders := FileTree.writesAt_ensureFolders (P := writtenPlaces entries) w.tree o.folder
  rw [hmade] at hfolders
  rw [hwritten]
  exact (hfolders.trans hwrote.writesAt).mono fun _ => writtenPlaces_iff.mp

/-- A configuration file that was missing is still missing, unless it is written or a folder is made on its
way. -/
theorem missing_again {o : Outcome} {c : Path} (hrun : (run target ds options).on w = (.ok o, w'))
    (hwritten : ∀ path ∈ o.written, c.location ≠ path.location)
    (hway : FileTree.NoFolderAt c.way w.tree w'.tree) (hmissing : w.tree.exists? c = .ok false) :
    w'.tree.exists? c = .ok false := by
  refine (run_writesAt hrun).exists?_false hway ?_ hmissing
  rintro ⟨path, hpath, heq⟩
  exact hwritten path hpath heq

/-- A run that went through goes through again on the tree that it left, and leaves it as it is. The
manifest is kept then, if one is wanted. The configuration file must not have been written, and if it was
missing it must still be. -/
theorem run_again {o : Outcome} (ht : target ∈ Target.all)
    (hrun : (run target ds options).on w = (.ok o, w'))
    (hconfig : ∀ c ∈ options.configFile, (∀ path ∈ o.written, c.location ≠ path.location) ∧
      (w.tree.exists? c = .ok false → w'.tree.exists? c = .ok false)) (log : List LogLine) :
    ∃ r o' w'', settings? w.tree target options.configFile = .ok r ∧
      settings? w'.tree target options.configFile = .ok r ∧
      (run target ds options).on ⟨w'.tree, log⟩ = (.ok o', w'') ∧ w''.tree = w'.tree ∧
      o'.folder = o.folder ∧
      o'.skipped = if r.generation.manifest then [manifestPath o.folder] else [] := by
  obtain ⟨r, p, entries, made, hsettings, hplan, hmade, hwrote, ho, _⟩ := run_wrote hrun
  obtain ⟨vs, hvs⟩ := Layout.exists_planned hplan
  have hextension := hasExtension_of_settings? hsettings
  have hspares := spares_manifest (target_of_settings? hsettings ▸ ht) hextension hvs o.folder
  have hagain : settings? w'.tree target options.configFile = .ok r := by
    refine settings?_again (run_writesAt hrun) (fun c hc => ?_) hsettings
    obtain ⟨hplace, hmissing⟩ := hconfig c hc
    refine ⟨hmissing, ?_⟩
    rintro ⟨path, hpath, heq⟩
    exact hplace path hpath heq
  obtain ⟨w₀, hregistry, hsame⟩ := on_registry target options.configFile ⟨w'.tree, log⟩
  rw [hagain] at hregistry
  rw [ho] at hspares hmade hwrote
  obtain ⟨o', w'', hemit, hend, ho', hskipped⟩ :=
    emit_again (w := w₀) hplan hspares hmade (hsame ▸ hwrote)
  refine ⟨r, o', w'', hsettings, hagain, ?_, hend.trans hsame, ho'.trans ho.symm, ?_⟩
  · rw [run, on_bind, hregistry]
    exact hemit
  · rw [hskipped, ho', ← ho]
    exact paths_of_kept hvs hextension o.folder

/-- Whether a run went through and wrote at other places than one. -/
def wentBeside (l : Location) : Except Failure Outcome → Bool
  | .ok o => o.written.all fun path => l != path.location
  | .error _ => false

theorem exists_beside {x : Activity Outcome} (h : wentBeside l (x.on w).1 = true) :
    ∃ o w', x.on w = (.ok o, w') ∧ ∀ path ∈ o.written, l ≠ path.location := by
  rcases hon : x.on w with ⟨e | o, w'⟩
  · rw [hon] at h
    cases h
  · rw [hon] at h
    exact ⟨o, w', rfl, fun path hpath => bne_iff_ne.mp (List.all_eq_true.mp h path hpath)⟩

/-- A run that looks for a configuration file. -/
def asking (c : Path) : Activity Outcome :=
  run .ioTs [.object "A" "" [] []] ⟨some ⟨"", ["out"]⟩, some c, none⟩

theorem asking_again :
    ∃ o w', (asking ⟨"", ["forge.yaml"]⟩).on ⟨.empty, []⟩ = (.ok o, w') ∧
      ∃ o' w'', (asking ⟨"", ["forge.yaml"]⟩).on ⟨w'.tree, []⟩ = (.ok o', w'') ∧
        w''.tree = w'.tree ∧ o'.skipped = [manifestPath o.folder] := by
  obtain ⟨o, w', hrun, hwritten⟩ := exists_beside (l := ⟨.above 0, ["forge.yaml"]⟩)
    (x := asking ⟨"", ["forge.yaml"]⟩) (w := ⟨.empty, []⟩) (by decide +kernel)
  have hnone : (w'.tree.get? ⟨.above 0, ["forge.yaml"]⟩).isNone = true := by
    have hend : w' = ((asking ⟨"", ["forge.yaml"]⟩).on ⟨.empty, []⟩).2 := by rw [hrun]
    rw [hend]
    decide +kernel
  have hway : FileTree.NoFolderAt (Path.way ⟨"", ["forge.yaml"]⟩) .empty w'.tree := by
    intro l hl hempty
    rcases List.mem_cons.mp hl with rfl | hl
    · cases hempty
    · obtain rfl := List.mem_singleton.mp hl
      rw [Option.isNone_iff_eq_none] at hnone
      change w'.tree.get? ⟨.above 0, ["forge.yaml"]⟩ ≠ _
      rw [hnone]
      exact nofun
  have hconfig : ∀ c ∈ some (⟨"", ["forge.yaml"]⟩ : Path),
      (∀ path ∈ o.written, c.location ≠ path.location) ∧
        (FileTree.empty.exists? c = .ok false → w'.tree.exists? c = .ok false) := by
    rintro c ⟨⟩
    exact ⟨hwritten, missing_again hrun hwritten hway⟩
  obtain ⟨r, o', w'', hsettings, _, hagain, htree, _, hskipped⟩ :=
    run_again List.mem_cons_self hrun hconfig []
  cases hsettings
  exact ⟨o, w', hrun, o', w'', hagain, htree, hskipped⟩

/-- A configuration file, and a way to it through a folder that is not there. -/
def besideTree : FileTree :=
  { entries := [(⟨.above 0, ["forge.yaml"]⟩, .file "output:\n  mode: single\n".toUTF8)] }

def throughFolder : Path := ⟨"", ["out", "..", "forge.yaml"]⟩

/-- The first run makes the folder on the way of the configuration file, and the second one finds it. -/
theorem config_found_later :
    ∃ o w', (asking throughFolder).on ⟨besideTree, []⟩ = (.ok o, w') ∧
      (∀ path ∈ o.written, throughFolder.location ≠ path.location) ∧
      ((asking throughFolder).on ⟨w'.tree, []⟩).2.tree ≠ w'.tree := by
  obtain ⟨o, w', hrun, hwritten⟩ := exists_beside (l := throughFolder.location)
    (x := asking throughFolder) (w := ⟨besideTree, []⟩) (by decide +kernel)
  refine ⟨o, w', hrun, hwritten, fun hsame => ?_⟩
  have hend : w' = ((asking throughFolder).on ⟨besideTree, []⟩).2 := by rw [hrun]
  have hnew : (((asking throughFolder).on ⟨w'.tree, []⟩).2.tree.get?
      ⟨.above 0, ["out", "schemas.ts"]⟩).isSome = true := by
    rw [hend]
    decide +kernel
  have hold : (w'.tree.get? ⟨.above 0, ["out", "schemas.ts"]⟩).isSome = false := by
    rw [hend]
    decide +kernel
  rw [hsame, hold] at hnew
  cases hnew

end Generation
end SchemaCompiler
