import SchemaCompiler.Proofs.CommandLine.Gates
import SchemaCompiler.Proofs.CommandLine.Printing
import SchemaCompiler.Proofs.Generation.Delivery

/-!
What becomes of a batch that is admitted: it is prepared if its report can be printed, and then it is
generated if its plan can be delivered.
-/
namespace SchemaCompiler.CommandLine

open Markup
open Run
open Text (bind_eq_ok_iff)

variable {o : GenerateOptions} {b : Batch} {s s' : Session} {t : FileTree} {found : List Diagnostic}
  {words : List String} {r : Registry} {p : Plan} {console : Console}

/-- The session with more lines in its log. -/
def Session.logged (s : Session) (lines : List LogLine) : Session :=
  { s with world := { s.world with log := s.world.log ++ lines } }

theorem Session.logged_nil (s : Session) : s.logged [] = s := by
  rw [logged, List.append_nil]

theorem Session.logged_logged (s : Session) (lines more : List LogLine) :
    (s.logged lines).logged more = s.logged (lines ++ more) := by
  rw [logged, logged, logged, List.append_assoc]

/-- Lines of a log that are there for debugging only. -/
def Quiet (lines : List LogLine) : Prop := ∀ line ∈ lines, line.level = .debug

theorem on_configFile {config : Option Path}
    (h : Source.findConfig s.world.tree o.config (some o.schemas) = .ok config) :
    ∃ lines, Quiet lines ∧ (configFile o).on s = (.ok config, s.logged lines) := by
  rw [configFile, on_tree_bind, h]
  cases config with
  | none => exact ⟨[], List.forall_mem_nil _, by rw [s.logged_nil]; rfl⟩
  | some p => exact ⟨_, List.forall_mem_singleton.mpr rfl, rfl⟩

theorem on_declarations {schemas : Path} {h : Heap} {a : Address} {ds : List Declaration}
    (hread : Source.schemas s.world.tree schemas = .ok (h, a))
    (hlowered : Lowering.schemas h Lowering.defaultLimit (h.entries a) = ⟨.ok ds, found⟩) :
    (declarations schemas).on s =
      (.ok (ds, found), s.logged [Lowering.walkedLine (h.entries a).length ds.length]) := by
  rw [declarations, on_tree_bind, hread]
  refine on_bind_eq_ok.mpr ⟨(h, a), s, rfl, ?_⟩
  dsimp only
  rw [hlowered]
  rfl

/-- What a run has read before it judges its batch: the documents, without looking at what is in them. -/
structure HasRead (tree : FileTree) (o : GenerateOptions) (b : Batch) (found : List Diagnostic) :
    Prop where
  target : Target.find? o.target = some b.target
  config : Source.findConfig tree o.config (some o.schemas) = .ok b.config
  lowered : ∃ h a, Source.schemas tree o.schemas = .ok (h, a) ∧
    Lowering.schemas h Lowering.defaultLimit (h.entries a) = ⟨.ok b.declarations, found⟩

theorem Admitted.hasRead {tree : FileTree} (h : Admitted tree o b found) : HasRead tree o b found :=
  ⟨h.target, h.config, h.lowered⟩

/-- The gates that a batch has to pass once it has been read. -/
def judge (o : GenerateOptions) (b : Batch) (found : List Diagnostic) : Run Batch := do
  requireSchemas o b.declarations
  showFound o (b.report found)
  requireClear o (b.report found)
  say .out s!"[green]✓ Parsed {b.declarations.length} schemas from {o.schemas.name}[/green]"
  return b

/-- Until it judges the batch a run only writes lines for debugging to its log. -/
theorem on_prepare (h : HasRead s.world.tree o b found) :
    ∃ lines, Quiet lines ∧ (prepare o).on s = (judge o b found).on (s.logged lines) := by
  obtain ⟨lines, hquiet, hconfig⟩ := on_configFile h.config
  obtain ⟨heap, a, hread, hlowered⟩ := h.lowered
  have hds := on_declarations (s := s.logged lines) hread hlowered
  have htarget : (findTarget o.target).on s = (.ok b.target, s) := by
    rw [findTarget, h.target]
    rfl
  refine ⟨lines ++ [Lowering.walkedLine (heap.entries a).length b.declarations.length], ?_, ?_⟩
  · exact List.forall_mem_append.mpr ⟨hquiet, List.forall_mem_singleton.mpr rfl⟩
  · rw [prepare, on_bind_ok htarget, on_bind_ok hconfig, on_bind_ok hds, s.logged_logged]
    rfl

theorem on_requireSchemas (hne : b.declarations ≠ []) (s : Session) :
    (requireSchemas o b.declarations).on s = (.ok (), s) := by
  rw [requireSchemas, if_neg (by simpa using hne)]
  rfl

/-- A batch that is admitted is prepared, unless its report cannot be printed. -/
theorem prepare_of_admitted (h : Admitted s.world.tree o b found) (hsplit : o.schemas.IsSplit) :
    (CanShow o.format o.schemas (b.report found) ∧
        ∃ s', (prepare o).on s = (.ok b, s') ∧ s'.world.tree = s.world.tree) ∨
      (¬ CanShow o.format o.schemas (b.report found) ∧
        ∃ s', (prepare o).on s = (.error (.exit 1), s') ∧ s'.world.tree = s.world.tree) := by
  obtain ⟨lines, _, hprepare⟩ := on_prepare h.hasRead
  have hblocks : (b.report found).blocks o.strict = false :=
    Report.blocks_eq_false.mpr ⟨h.errors, h.warnings⟩
  have hclear (s : Session) : (requireClear o (b.report found)).on s = (.ok (), s) := by
    rw [requireClear, hblocks]
    rfl
  rw [hprepare, judge, on_bind_ok (on_requireSchemas h.nonempty _)]
  rcases prints_showFound o (b.report found) (s.logged lines) with
    ⟨hclean, s₁, hshown, hsame⟩ | ⟨hstray, s₁, hshown, hsame⟩
  · rw [on_bind_ok hshown, on_bind_ok (hclear s₁)]
    rcases prints_print .out (.paragraph (.markup
        s!"[green]✓ Parsed {b.declarations.length} schemas from {o.schemas.name}[/green]")) s₁ with
      ⟨_, s₂, hparsed, hlast⟩ | ⟨hstray, _⟩
    · rw [say, on_bind_ok hparsed]
      refine .inl ⟨hclean, s₂, rfl, ?_⟩
      rw [hlast, hsame]
      rfl
    · exact absurd (Block.printable_markup (readable_parsed hsplit _)) hstray
  · rw [on_bind_error hshown]
    refine .inr ⟨hstray, s₁, rfl, ?_⟩
    rw [hsame]
    rfl

theorem isSplit_skipped {r : Registry} {p : Plan} {options : Generation.Options}
    (hsplit : ∀ folder ∈ options.folder, folder.IsSplit) {path : Path}
    (h : ∃ f ∈ p.files, path = f.path (Generation.outputFolder r options)) : path.IsSplit := by
  obtain ⟨f, _, rfl⟩ := h
  refine Path.IsSplit.join ?_ (Path.isSplit_ofString f.name)
  rw [Generation.outputFolder]
  cases hfolder : options.folder with
  | none => exact Path.isSplit_ofString _
  | some folder => exact hsplit folder hfolder

/-- All planned files have been written below a folder, or kept there. -/
def Finished (before after : FileTree) (folder : Path) (files : List PlannedFile) : Prop :=
  ∀ f ∈ files, Generation.Delivered (before.ensureFolders folder).1 after folder files f

/-- A batch that can be delivered is, whether or not it can be shown what was done. -/
theorem produce_of_deliverable {r : Registry} {p : Plan} {name : String}
    (htarget : Target.find? name = some b.target)
    (hsplit : ∀ folder ∈ o.folder, folder.IsSplit)
    (hsettings : Generation.settings? s.world.tree b.target b.config = .ok r)
    (hplan : Layout.ofDeclarations r o.package b.declarations = .ok p)
    (h : Generation.Deliverable s.world.tree (Generation.outputFolder r (b.options o)) p.files) :
    let folder := Generation.outputFolder r (b.options o)
    (∃ s', (produce o b).on s = (.ok (), s') ∧
        Finished s.world.tree s'.world.tree folder p.files) ∨
      (Closes folder.text.toList ∧ ∃ s', (produce o b).on s = (.error (.exit 1), s') ∧
        Finished s.world.tree s'.world.tree folder p.files) := by
  intro folder
  obtain ⟨done, w, hrun, hfolder, hskipped, hfiles⟩ :=
    Generation.run_delivers (b.options o) hsettings hplan h
  have hactivity : (activity (b.generation o)).on s = (.ok done, { s with world := w }) := by
    rw [on_activity, Batch.generation, hrun]
  rw [hfolder] at hskipped hfiles
  have hprints := (prints_print .out (outcomeGrid b.target done)).bind
    (prints_print .out (.paragraph (.markup
      s!"\n[bold green]✓ Generated code in {done.folder.text}[/bold green]\n")))
  have hproduce : (produce o b).on s = Run.on (do
      print .out (outcomeGrid b.target done)
      say .out s!"\n[bold green]✓ Generated code in {done.folder.text}[/bold green]\n")
      { s with world := w } := on_bind_ok hactivity _
  rw [hproduce]
  rcases hprints { s with world := w } with ⟨_, s', hshown, hsame⟩ | ⟨hstray, s', hshown, hsame⟩
  · exact .inl ⟨s', hshown, hsame ▸ hfiles⟩
  · refine .inr ⟨?_, s', hshown, hsame ▸ hfiles⟩
    by_contra hfree
    have hdone : ¬ Closes done.folder.text.toList := by
      rw [hfolder]
      exact hfree
    refine hstray ⟨printable_outcome htarget hdone fun path hpath => ?_,
      Block.printable_markup (readable_done hdone)⟩
    exact isSplit_skipped hsplit (hskipped path hpath)

/-- A batch that is admitted, planned and can be delivered is generated, unless its report cannot be
printed. -/
theorem generateCode_of_admitted (hadmitted : Admitted s.world.tree o b found)
    (hschemas : o.schemas.IsSplit) (hfolders : ∀ folder ∈ o.folder, folder.IsSplit)
    (hsettings : Generation.settings? s.world.tree b.target b.config = .ok r)
    (hplan : Layout.ofDeclarations r o.package b.declarations = .ok p)
    (hdeliverable :
      Generation.Deliverable s.world.tree (Generation.outputFolder r (b.options o)) p.files) :
    let folder := Generation.outputFolder r (b.options o)
    let shown := CanShow o.format o.schemas (b.report found)
    (shown ∧ ∃ s', (generateCode o).on s = (.ok (), s') ∧
        Finished s.world.tree s'.world.tree folder p.files) ∨
      (¬ shown ∧ ∃ s', (generateCode o).on s = (.error (.exit 1), s') ∧
        s'.world.tree = s.world.tree) ∨
      Closes folder.text.toList ∧ ∃ s', (generateCode o).on s = (.error (.exit 1), s') ∧
        Finished s.world.tree s'.world.tree folder p.files := by
  intro folder shown
  rcases prepare_of_admitted hadmitted hschemas with
    ⟨hshown, s₁, hprepare, htree⟩ | ⟨hstray, s₁, hprepare, htree⟩
  · rw [generateCode, on_bind_ok hprepare]
    rw [← htree] at hsettings hdeliverable ⊢
    rcases produce_of_deliverable hadmitted.target hfolders hsettings hplan hdeliverable with
      hfinished | hfinished
    · exact .inl ⟨hshown, hfinished⟩
    · exact .inr (.inr hfinished)
  · rw [generateCode, on_bind_error hprepare]
    exact .inr (.inl ⟨hstray, s₁, rfl, htree⟩)

/-- Such a generation changes the tree, when nothing in it closes a style and one of the planned files
is not there yet. -/
theorem generateCode_changes (hadmitted : Admitted s.world.tree o b found)
    (hschemas : o.schemas.IsSplit) (hfolders : ∀ folder ∈ o.folder, folder.IsSplit)
    (hsettings : Generation.settings? s.world.tree b.target b.config = .ok r)
    (hplan : Layout.ofDeclarations r o.package b.declarations = .ok p)
    (hdeliverable :
      Generation.Deliverable s.world.tree (Generation.outputFolder r (b.options o)) p.files)
    (hreport : (b.report found).IsFree)
    (hfolder : ¬ Closes (Generation.outputFolder r (b.options o)).text.toList)
    (hnew : ∃ f ∈ p.files,
      (s.world.tree.find (f.path (Generation.outputFolder r (b.options o)))).isOk = false) :
    ((generateCode o).on s).2.world.tree ≠ s.world.tree := by
  intro hsame
  obtain ⟨f, hf, hnew⟩ := hnew
  rcases generateCode_of_admitted hadmitted hschemas hfolders hsettings hplan hdeliverable with
    ⟨_, s', hon, hfinished⟩ | ⟨hstray, _⟩ | ⟨hcloses, _⟩
  · rw [hon] at hsame
    obtain ⟨e, he⟩ := (hfinished f hf).exists_entry
    rw [hsame] at he
    rw [he] at hnew
    cases hnew
  · exact hstray (canShow_of_free hreport _ _)
  · exact hfolder hcloses

/-- The session that a run starts with. -/
def Session.start (console : Console) (t : FileTree) : Session := ⟨console, ⟨t, []⟩, [], []⟩

/-- A console of the usual width. -/
def plainConsole : Console := ⟨80, .none⟩

/-- How the program ends when a command goes through. -/
theorem run_of_ok {words : List String} {c : Command} {session : Session}
    (hwords : Command.ofWords t words = .ok c) (h : c.run.on (.start console t) = (.ok (), session)) :
    ∃ log, run console t words = .ok ⟨0, session, log⟩ := by
  have hshown : c.runShown.on (.start console t) = (.ok (), session) := by
    rw [Command.runShown, on_tryCatch, h]
  change c.runShown.run.run ⟨console, ⟨t, []⟩, [], []⟩ = _ at hshown
  rw [run, hwords]
  dsimp only [bind, Except.bind]
  rw [hshown]
  exact ⟨_, rfl⟩

theorem run_of_shown {words : List String} {c : Command} {session : Session} {code : Nat}
    (hwords : Command.ofWords t words = .ok c)
    (h : c.runShown.on (.start console t) = (.error (.exit code), session)) :
    run console t words = .ok ⟨code, session,
      LogLine.ofLeast (if c.verbose then .debug else .warning) session.world.log⟩ := by
  change c.runShown.run.run ⟨console, ⟨t, []⟩, [], []⟩ = _ at h
  rw [run, hwords]
  dsimp only [bind, Except.bind]
  rw [h]
  rfl

theorem runShown_of_exit {c : Command} {code : Nat} (h : c.run.on s = (.error (.exit code), s')) :
    c.runShown.on s = (.error (.exit code), s') := by
  rw [Command.runShown, on_tryCatch, h]
  rfl

/-- How the program ends when a command ends with an exit code. -/
theorem run_of_exit {words : List String} {c : Command} {session : Session} {code : Nat}
    (hwords : Command.ofWords t words = .ok c)
    (h : c.run.on (.start console t) = (.error (.exit code), session)) :
    ∃ log, run console t words = .ok ⟨code, session, log⟩ :=
  ⟨_, run_of_shown hwords (runShown_of_exit h)⟩

theorem isSplit_of_optionalPath {check : String → Except UsageError Path} {given : Option String}
    {path? : Option Path} (hcheck : ∀ s p, check s = .ok p → p.IsSplit)
    (h : optionalPath check given = .ok path?) : ∀ path ∈ path?, path.IsSplit := by
  cases given with
  | none =>
    cases h
    exact nofun
  | some s =>
    rw [optionalPath] at h
    cases hs : check s with
    | error e =>
      rw [hs] at h
      cases h
    | ok p =>
      rw [hs] at h
      cases h
      exact fun path hpath => Option.mem_some.mp hpath ▸ hcheck s p hs

theorem isSplit_of_folderPath (s : String) (p : Path) (h : folderPath t s = .ok p) : p.IsSplit := by
  obtain ⟨e, _, h⟩ := bind_eq_ok_iff.mp h
  split at h
  · cases h
  · cases h
    exact Path.isSplit_ofString s

theorem isSplit_of_schemaFile {s : String} {p : Path} (h : schemaFile t s = .ok p) : p.IsSplit := by
  rw [schemaFile] at h
  split at h
  · cases h
    exact (Path.isSplit_ofString s).resolved
  · cases h

theorem isSplit_of_readGenerate (h : readGenerate t w = .ok (.generate o)) :
    o.schemas.IsSplit ∧ ∀ folder ∈ o.folder, folder.IsSplit := by
  obtain ⟨folder, hfolder, h⟩ := bind_eq_ok_iff.mp h
  obtain ⟨config, _, h⟩ := bind_eq_ok_iff.mp h
  obtain ⟨word, _, h⟩ := bind_eq_ok_iff.mp h
  obtain ⟨schemas, hschemas, h⟩ := bind_eq_ok_iff.mp h
  cases h
  exact ⟨isSplit_of_schemaFile hschemas, isSplit_of_optionalPath isSplit_of_folderPath hfolder⟩

theorem of_readCommand {known : List OptionName} {read : Words → Except UsageError Command}
    {words : List String} (h : readCommand known read words = .ok (.generate o)) :
    ∃ w, read w = .ok (.generate o) := by
  obtain ⟨w, _, h⟩ := bind_eq_ok_iff.mp h
  split at h
  · cases h
  · exact ⟨w, h⟩

theorem isSplit_of_words {words : List String}
    (h : Command.ofWords t words = .ok (.generate o)) :
    o.schemas.IsSplit ∧ ∀ folder ∈ o.folder, folder.IsSplit := by
  obtain ⟨w, _, h⟩ := bind_eq_ok_iff.mp h
  split at h
  · split at h
    · cases h
    · cases h
  · split at h
    · cases h
    · obtain ⟨w, h⟩ := of_readCommand h
      exact isSplit_of_readGenerate h
    · obtain ⟨w, h⟩ := of_readCommand h
      obtain ⟨_, _, h⟩ := bind_eq_ok_iff.mp h
      obtain ⟨_, _, h⟩ := bind_eq_ok_iff.mp h
      cases h
    · obtain ⟨w, h⟩ := of_readCommand h
      obtain ⟨_, _, h⟩ := bind_eq_ok_iff.mp h
      obtain ⟨_, _, h⟩ := bind_eq_ok_iff.mp h
      cases h
    · obtain ⟨w, h⟩ := of_readCommand h
      obtain ⟨_, _, h⟩ := bind_eq_ok_iff.mp h
      cases h
    · cases h

end SchemaCompiler.CommandLine
