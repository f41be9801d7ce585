import SchemaCompiler.Proofs.CommandLine.Admitted

/-!
How generation runs end. Only a batch that passes all gates is generated. A batch that nothing but
warnings speaks against ends well, unless one of the texts that are printed closes a style: then
printing ends the run, before or after it has generated.
-/
namespace SchemaCompiler.CommandLine

open Markup
open Run

variable {o : GenerateOptions} {b : Batch} {t : FileTree} {found : List Diagnostic}
  {words : List String} {r : Registry} {p : Plan} {console : Console}

/-- A document of one schema, an enum that lists a member twice. -/
def twiceText (member : String) : String :=
  s!"components:\n  schemas:\n    Tag:\n      enum: ['{member}', '{member}']\n"

def twiceTree (member : String) : FileTree :=
  { entries := [(⟨.above 0, ["api.yaml"]⟩, .file (twiceText member).toUTF8)] }

def twiceHeap (member : String) : Heap := ⟨#[
  .entries [(.str "components", .map 1)], .entries [(.str "schemas", .map 2)],
  .entries [(.str "Tag", .map 3)], .entries [(.str "enum", .list 4)],
  .items [.str member, .str member]]⟩

def twiceOptions : GenerateOptions where
  schemas := ⟨"", ["api.yaml"]⟩
  folder := none
  target := "typescript"
  package := none
  config := none
  strict := false
  format := .grid
  verbose := false

def twiceWords : List String := ["generate", "api.yaml", "--format", "table"]

def twiceBatch (member : String) : Batch := ⟨.ioTs, none, [.enum "Tag" "" [member, member]]⟩

/-- The settings and the output folder when there is no configuration. -/
def plainSettings : Registry := (Registry.defaults .ioTs).freeze

def plainFolder : Path := ⟨"", ["generated"]⟩

theorem admitted_twice {member : String}
    (hread : (Source.schemas (twiceTree member) twiceOptions.schemas).toOption =
      some (twiceHeap member, 2))
    (herrors : ∀ d ∈ ((twiceBatch member).report []).diagnostics, d.severity ≠ .error) :
    Admitted (twiceTree member) twiceOptions (twiceBatch member) [] where
  target := rfl
  config := rfl
  lowered := by
    refine ⟨twiceHeap member, 2, ?_, rfl⟩
    cases hschemas : Source.schemas (twiceTree member) twiceOptions.schemas with
    | error e =>
      rw [hschemas] at hread
      cases hread
    | ok document =>
      rw [hschemas] at hread
      cases hread
      rfl
  nonempty := List.cons_ne_nil _ _
  errors := herrors
  warnings := fun hstrict => nomatch hstrict

/-- All planned files can be written, and one of them is not there yet. -/
theorem exists_deliverable_plan {t : FileTree} {ds : List Declaration}
    (hmade : (t.ensureFolders plainFolder).2 = .ok ())
    (hfiles : (Layout.ofDeclarations plainSettings none ds).toOption.any (fun p =>
      p.files.any (fun f => !(t.find (f.path plainFolder)).isOk) &&
      p.files.all fun f =>
        ((t.ensureFolders plainFolder).1.write (f.path plainFolder) f.content).2.isOk) = true) :
    ∃ p, Layout.ofDeclarations plainSettings none ds = .ok p ∧
      Generation.Deliverable t plainFolder p.files ∧
      ∃ f ∈ p.files, (t.find (f.path plainFolder)).isOk = false := by
  cases hplan : Layout.ofDeclarations plainSettings none ds with
  | error e =>
    rw [hplan] at hfiles
    cases hfiles
  | ok p =>
    rw [hplan] at hfiles
    obtain ⟨hnew, hall⟩ := Bool.and_eq_true_iff.mp hfiles
    refine ⟨p, rfl, ⟨hmade, fun f hf => .inr ?_⟩, by simpa using hnew⟩
    have hwritten := List.all_eq_true.mp hall f hf
    rcases hwrite : (t.ensureFolders plainFolder).1.write (f.path plainFolder) f.content with
      ⟨t', _ | _⟩
    · rw [hwrite] at hwritten
      cases hwritten
    · exact ⟨t', rfl⟩

theorem twice_admitted : Admitted (twiceTree "b") twiceOptions (twiceBatch "b") [] :=
  admitted_twice (by decide +kernel) (by decide +kernel)

theorem twice_plan : ∃ p, Layout.ofDeclarations plainSettings none (twiceBatch "b").declarations = .ok p ∧
    Generation.Deliverable (twiceTree "b") plainFolder p.files ∧
    ∃ f ∈ p.files, ((twiceTree "b").find (f.path plainFolder)).isOk = false :=
  exists_deliverable_plan rfl (by decide +kernel)

/-- A member that looks like a closing tag cannot be printed in the message about it. -/
theorem not_canShow_stray : ¬ CanShow .grid twiceOptions.schemas ((twiceBatch "[/b]").report []) := by
  intro hshown
  let d := (Finding.repeatedMember "Tag" "[/b]").atPath "components.schemas.Tag"
  have hd : d ∈ ((twiceBatch "[/b]").report []).diagnostics := by decide +kernel
  have hgrid := hshown (List.ne_nil_of_mem hd) _ List.mem_cons_self
  have hcell : Readable d.message := Block.readable_of_printable_grid hgrid (List.mem_map_of_mem hd)
    (List.mem_cons_of_mem _ (List.mem_cons_of_mem _ (List.mem_cons_of_mem _ List.mem_cons_self)))
  exact not_readable_of_stray "Enum 'Tag' lists '".toList "b".toList "' more than once".toList
    (by decide) (by decide) (by decide) (by decide) hcell

/-- A run that changes the file tree has passed all gates, and a run that fails leaves the tree as it
is, unless it fails by what it cannot write. -/
theorem changes_admitted (o : GenerateOptions) (s : Session) :
    (((generateCode o).on s).2.world.tree ≠ s.world.tree → ∃ b found r p,
      Admitted s.world.tree o b found ∧
      Generation.settings? s.world.tree b.target b.config = .ok r ∧
      Layout.ofDeclarations r o.package b.declarations = .ok p) ∧
    ∀ e, ((generateCode o).on s).1 = .error (.failed e) → e.isOutput = false →
      ((generateCode o).on s).2.world.tree = s.world.tree := by
  have hkept := keeps_prepare o s
  rw [generateCode, on_bind]
  rcases hprepare : (prepare o).on s with ⟨stop | b, s₁⟩
  · rw [hprepare] at hkept
    exact ⟨fun hchanged => absurd hkept hchanged, fun _ _ _ => hkept⟩
  · rw [hprepare] at hkept
    have htree : s₁.world.tree = s.world.tree := hkept
    obtain ⟨hproduced, hfailed⟩ := on_produce o b s₁
    rcases Generation.run_cases b.target b.declarations (b.options o) s₁.world with
      ⟨e, w, hrun, hrest⟩ | ⟨r, p, hsettings, hplan, houtput⟩
    · -- The generation failed before it touched the tree.
      have hsame : ((produce o b).on s₁).2.world.tree = s.world.tree := by
        rw [hproduced, Batch.generation, hrun]
        exact hrest.trans htree
      exact ⟨fun hchanged => absurd hsame hchanged, fun _ _ _ => hsame⟩
    · obtain ⟨found, hadmitted⟩ := prepare_ok hprepare
      have hread : Generation.settings? s.world.tree b.target b.config = .ok r := htree ▸ hsettings
      refine ⟨fun _ => ⟨b, found, r, p, hadmitted, hread, hplan⟩, fun e he hinner => ?_⟩
      have houter := houtput e (hfailed e he)
      rw [hinner] at houter
      cases houter

theorem twice_changes :
    ((generateCode twiceOptions).on (.start plainConsole (twiceTree "b"))).2.world.tree ≠ twiceTree "b" ∧
      ∃ b found r p, Admitted (twiceTree "b") twiceOptions b found ∧
        Generation.settings? (twiceTree "b") b.target b.config = .ok r ∧
        Layout.ofDeclarations r twiceOptions.package b.declarations = .ok p := by
  obtain ⟨p, hplan, hdeliverable, hnew⟩ := twice_plan
  have hchanges := generateCode_changes (s := .start plainConsole (twiceTree "b")) twice_admitted
    (Path.isSplit_ofString "api.yaml") nofun rfl hplan hdeliverable (by decide) (by decide) hnew
  exact ⟨hchanges, (changes_admitted twiceOptions (.start plainConsole (twiceTree "b"))).1 hchanges⟩

/-- A run whose batch is admitted, planned and can be delivered ends well, with all files written or
kept. Or else printing ends it with the exit code 1: a text of the report closes a style, and nothing
has been written, or the name of the output folder does, and all files are there. -/
theorem admitted_ends (hwords : Command.ofWords t words = .ok (.generate o))
    (hadmitted : Admitted t o b found)
    (hsettings : Generation.settings? t b.target b.config = .ok r)
    (hplan : Layout.ofDeclarations r o.package b.declarations = .ok p)
    (hdeliverable : Generation.Deliverable t (Generation.outputFolder r (b.options o)) p.files) :
    let folder := Generation.outputFolder r (b.options o)
    let report := b.report found
    ∃ result, run console t words = .ok result ∧
      (result.code = 0 ∧ Finished t result.session.world.tree folder p.files ∧
          CanShow o.format o.schemas report ∨
        result.code = 1 ∧ result.session.world.tree = t ∧
          ¬ CanShow o.format o.schemas report ∧ ¬ report.IsFree ∨
        result.code = 1 ∧ Finished t result.session.world.tree folder p.files ∧
          Closes folder.text.toList) := by
  intro folder report
  obtain ⟨hschemas, hfolders⟩ := isSplit_of_words hwords
  rcases generateCode_of_admitted (s := .start console t) hadmitted hschemas hfolders hsettings hplan
    hdeliverable with ⟨hshown, s', hon, hend⟩ | ⟨hstray, s', hon, hend⟩ | ⟨hcloses, s', hon, hend⟩
  · obtain ⟨log, hrun⟩ := run_of_ok hwords hon
    exact ⟨_, hrun, .inl ⟨rfl, hend, hshown⟩⟩
  · obtain ⟨log, hrun⟩ := run_of_exit hwords hon
    exact ⟨_, hrun, .inr (.inl ⟨rfl, hend, hstray, fun hfree => hstray (canShow_of_free hfree _ _)⟩)⟩
  · obtain ⟨log, hrun⟩ := run_of_exit hwords hon
    exact ⟨_, hrun, .inr (.inr ⟨rfl, hend, hcloses⟩)⟩

theorem twice_ends :
    Command.ofWords (twiceTree "b") twiceWords = .ok (.generate twiceOptions) ∧
      Admitted (twiceTree "b") twiceOptions (twiceBatch "b") [] ∧
      ((twiceBatch "b").report []).warnings ≠ [] ∧
      ∃ p result, Layout.ofDeclarations plainSettings none (twiceBatch "b").declarations = .ok p ∧
        Generation.Deliverable (twiceTree "b") plainFolder p.files ∧
        run plainConsole (twiceTree "b") twiceWords = .ok result ∧ result.code = 0 ∧
        Finished (twiceTree "b") result.session.world.tree plainFolder p.files := by
  have hwords : Command.ofWords (twiceTree "b") twiceWords = .ok (.generate twiceOptions) := by
    decide +kernel
  obtain ⟨p, hplan, hdeliverable, _⟩ := twice_plan
  obtain ⟨result, hrun, hends⟩ := admitted_ends hwords twice_admitted rfl hplan hdeliverable
  refine ⟨hwords, twice_admitted, by decide +kernel, p, result, hplan, hdeliverable, hrun, ?_⟩
  rcases hends with ⟨hcode, hfinished, _⟩ | ⟨_, _, _, hstray⟩ | ⟨_, _, hcloses⟩
  · exact ⟨hcode, hfinished⟩
  · exact absurd (by decide) hstray
  · exact absurd hcloses (by decide)

/-- Nothing but a warning speaks against the document, and its run ends with the exit code 1 and
without a file. -/
theorem stray_member_ends_badly :
    Command.ofWords (twiceTree "[/b]") twiceWords = .ok (.generate twiceOptions) ∧
      twiceOptions.strict = false ∧
      Admitted (twiceTree "[/b]") twiceOptions (twiceBatch "[/b]") [] ∧
      (∃ p, Layout.ofDeclarations plainSettings none (twiceBatch "[/b]").declarations = .ok p ∧
        Generation.Deliverable (twiceTree "[/b]") plainFolder p.files ∧ p.files ≠ []) ∧
      ∃ result, run plainConsole (twiceTree "[/b]") twiceWords = .ok result ∧ result.code = 1 ∧
        result.session.world.tree = twiceTree "[/b]" := by
  have hwords : Command.ofWords (twiceTree "[/b]") twiceWords = .ok (.generate twiceOptions) := by
    decide +kernel
  have hadmitted : Admitted (twiceTree "[/b]") twiceOptions (twiceBatch "[/b]") [] :=
    admitted_twice (by decide +kernel) (by decide +kernel)
  obtain ⟨p, hplan, hdeliverable, f, hf, _⟩ : ∃ p,
      Layout.ofDeclarations plainSettings none (twiceBatch "[/b]").declarations = .ok p ∧
      Generation.Deliverable (twiceTree "[/b]") plainFolder p.files ∧
      ∃ f ∈ p.files, ((twiceTree "[/b]").find (f.path plainFolder)).isOk = false :=
    exists_deliverable_plan rfl (by decide +kernel)
  refine ⟨hwords, rfl, hadmitted, ⟨p, hplan, hdeliverable, List.ne_nil_of_mem hf⟩, ?_⟩
  rcases generateCode_of_admitted (s := .start plainConsole (twiceTree "[/b]")) hadmitted
    (Path.isSplit_ofString "api.yaml") nofun rfl hplan hdeliverable with
    ⟨hshown, _⟩ | ⟨_, s', hon, htree⟩ | ⟨hcloses, _⟩
  · exact absurd hshown not_canShow_stray
  · obtain ⟨log, hrun⟩ := run_of_exit hwords hon
    exact ⟨_, hrun, rfl, htree⟩
  · exact absurd hcloses (by decide)

end SchemaCompiler.CommandLine
