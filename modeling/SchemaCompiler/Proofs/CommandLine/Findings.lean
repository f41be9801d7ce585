import SchemaCompiler.Proofs.CommandLine.Streams

/-!
What a generation run tells of the findings of its document. It tells all of them if it comes to its
report and the report can be printed. A document without declarations has no report.
-/
namespace SchemaCompiler.CommandLine

open Markup
open Run

variable {o : GenerateOptions} {b : Batch} {s : Session} {t : FileTree} {found : List Diagnostic}
  {words : List String} {r : Report} {d : Diagnostic} {console : Console}

theorem showReport_eq (format : Format) (schemas : Path) (r : Report) :
    showReport format schemas r = printAll .err (shownReport format schemas r) := by
  cases format with
  | grid => simp [showReport, shownReport, printAll]
  | text => rfl

theorem exists_names_shown (hwide : 23 ≤ console.width) (hd : d ∈ r.diagnostics)
    (hfinding : d.IsFinding) (format : Format) (schemas : Path) :
    ∃ b ∈ shownReport format schemas r, b.Names console d := by
  cases format with
  | grid => exact ⟨r.grid, List.mem_cons_self, Report.names_grid hwide hd hfinding⟩
  | text => exact Report.exists_names_page hwide hd hfinding _

/-- A report that can be shown is shown with all its findings. -/
theorem on_showFound (o : GenerateOptions) (r : Report) (hwide : 23 ≤ s.console.width) : ∃ lines,
    CanShow o.format o.schemas r ∧ (showFound o r).on s = (.ok (), s.told lines) ∧
        (∀ d ∈ r.diagnostics, d.IsFinding → d.IsNamedIn lines) ∨
      ¬ CanShow o.format o.schemas r ∧
        (showFound o r).on s = (.error (.exit 1), s.told lines) ∧
        BreaksOff s.console (shownReport o.format o.schemas r) lines := by
  by_cases hempty : r.diagnostics = []
  · refine ⟨[], .inl ⟨fun hne => absurd hempty hne, ?_, by simp [hempty]⟩⟩
    rw [showFound, hempty, Session.told, List.append_nil]
    rfl
  · have hshow : showFound o r = printAll .err (shownReport o.format o.schemas r) := by
      rw [showFound, if_pos (by simpa using hempty), showReport_eq]
    obtain ⟨lines, ⟨hprinted, hon⟩ | ⟨hbreaks, hon⟩⟩ :=
      on_printAll (shownReport o.format o.schemas r) s
    · refine ⟨lines, .inl ⟨fun _ => hprinted.printable, hshow ▸ hon, fun d hd hfinding => ?_⟩⟩
      obtain ⟨b, hb, hnames⟩ := exists_names_shown hwide hd hfinding o.format o.schemas
      exact hprinted.named hb hnames
    · exact ⟨lines, .inr ⟨fun hshown => hbreaks.not_printable (hshown hempty), hshow ▸ hon, hbreaks⟩⟩

/-- What a run says about a document without declarations. -/
def noSchemas (schemas : Path) : Block :=
  .paragraph (.markup s!"\n✗ No schemas found in {schemas.name}\n")

theorem printable_noSchemas {schemas : Path} (h : schemas.IsSplit) : (noSchemas schemas).Printable := by
  refine Block.printable_markup (readable_of_free fun hcloses => ?_)
  have hslash := hcloses.slash
  simp [toString, h.no_slash_name] at hslash

theorem grows_produce (o : GenerateOptions) (b : Batch) : Grows (produce o b) :=
  (grows_activity _).bind fun _ => (grows_print _ _).bind fun _ => grows_say _ _

theorem grows_requireClear (o : GenerateOptions) (r : Report) : Grows (requireClear o r) := by
  rw [requireClear]
  split
  · exact grows_fail _
  · exact grows_pure _

theorem on_requireSchemas_nil {lines : List String}
    (h : (noSchemas o.schemas).lines s.console = .ok lines) :
    (requireSchemas o []).on s = (.error (.exit 1), s.told lines) := by
  rw [requireSchemas, List.isEmpty_nil, if_pos rfl, say]
  exact on_bind_ok (on_print h) _

/-- What a run that has read its documents tells about them. -/
theorem generateCode_of_read (hwide : 23 ≤ s.console.width) (h : HasRead s.world.tree o b found)
    (hsplit : o.schemas.IsSplit) : ∃ log lines, Quiet log ∧
      (b.declarations = [] ∧ (noSchemas o.schemas).lines s.console = .ok lines ∧
          (generateCode o).on s = (.error (.exit 1), (s.logged log).told lines) ∨
        b.declarations ≠ [] ∧ CanShow o.format o.schemas (b.report found) ∧
          (∀ d ∈ (b.report found).diagnostics, d.IsFinding → d.IsNamedIn lines) ∧
          s.err ++ lines <+: ((generateCode o).on s).2.err ∨
        b.declarations ≠ [] ∧ ¬ CanShow o.format o.schemas (b.report found) ∧
          BreaksOff s.console (shownReport o.format o.schemas (b.report found)) lines ∧
          (generateCode o).on s = (.error (.exit 1), (s.logged log).told lines)) := by
  obtain ⟨log, hquiet, hprepare⟩ := on_prepare h
  by_cases hempty : b.declarations = []
  · obtain ⟨lines, hlines⟩ := printable_noSchemas hsplit s.console
    refine ⟨log, lines, hquiet, .inl ⟨hempty, hlines, ?_⟩⟩
    have hrequire : (requireSchemas o []).on (s.logged log) = _ := on_requireSchemas_nil hlines
    rw [generateCode, on_bind, hprepare, judge, hempty, on_bind_error hrequire]
  · obtain ⟨lines, ⟨hshown, hon, hnamed⟩ | ⟨hstray, hon, hbreaks⟩⟩ :=
      on_showFound (s := s.logged log) o (b.report found) hwide
    · refine ⟨log, lines, hquiet, .inr (.inl ⟨hempty, hshown, hnamed, ?_⟩)⟩
      -- Whatever comes after the report only adds lines.
      have hgrows := (grows_requireClear o (b.report found)).bind fun _ => (grows_say .out
        s!"[green]✓ Parsed {b.declarations.length} schemas from {o.schemas.name}[/green]").bind
          fun _ => grows_pure b
      rw [generateCode, on_bind, hprepare, judge, on_bind_ok (on_requireSchemas hempty _),
        on_bind_ok hon, ← on_bind]
      exact hgrows.bind (grows_produce o) ((s.logged log).told lines)
    · refine ⟨log, lines, hquiet, .inr (.inr ⟨hempty, hstray, hbreaks, ?_⟩)⟩
      rw [generateCode, on_bind, hprepare, judge, on_bind_ok (on_requireSchemas hempty _),
        on_bind_error hon]

/-- A run that ends with an exit code has told what it has told, and shows no line for debugging unless
it is asked to. -/
theorem run_of_told {log : List LogLine} {lines : List String} {code : Nat}
    (hwords : Command.ofWords t words = .ok (.generate o))
    (hon : (generateCode o).on (.start console t) =
      (.error (.exit code), ((Session.start console t).logged log).told lines))
    (hquiet : Quiet log) : ∃ result, run console t words = .ok result ∧ result.code = code ∧
      result.session.out = [] ∧ result.session.err = lines ∧ (o.verbose = false → result.log = []) := by
  refine ⟨_, run_of_shown hwords (runShown_of_exit hon), rfl, rfl, List.nil_append lines, ?_⟩
  intro hverbose
  have hleast : (Command.generate o).verbose = false := hverbose
  rw [hleast]
  refine List.filter_eq_nil_iff.mpr fun line hline => ?_
  have hlog : (((Session.start console t).logged log).told lines).world.log = log := List.nil_append log
  have hlevel : line.level = .debug := hquiet line (hlog ▸ hline)
  rw [hlevel]
  decide

theorem on_prepare_error {target : Target} {e : FileError}
    (htarget : Target.find? o.target = some target)
    (hconfig : Source.findConfig s.world.tree o.config (some o.schemas) = .error e) :
    (prepare o).on s = (.error (.failed (.file e)), s) := by
  have hfound : (findTarget o.target).on s = (.ok target, s) := by
    rw [findTarget, htarget]
    rfl
  have hfailed : (configFile o).on s = (.error (.failed (.file e)), s) := by
    rw [configFile, on_tree_bind, hconfig]
    rfl
  rw [prepare, on_bind_ok hfound, on_bind_error hfailed]

/-- A document whose first schema is a number, with the text of the schemas behind it. -/
def numberTree (more : String) : FileTree :=
  { entries := [(⟨.above 0, ["api.yaml"]⟩, .file ("components:\n  schemas:\n    A: 5\n" ++ more).toUTF8)] }

/-- The values of such a document, whose other schemas have the entries `more` and the parts `below`. -/
def numberHeap (more : Entries) (below : List Cell) : Heap := ⟨(
  .entries [(.str "components", .map 1)] :: .entries [(.str "schemas", .map 2)] ::
  .entries ((.str "A", .scalar (.int 5)) :: more) :: below).toArray⟩

/-- What is found about a schema that is a number. -/
def numberFound : Diagnostic := (Finding.schemaNotMapping "A" "int").atPath "components.schemas.A"

def numberWords : List String := ["generate", "api.yaml"]

def numberOptions : GenerateOptions where
  schemas := ⟨"", ["api.yaml"]⟩
  folder := none
  target := "typescript"
  package := none
  config := none
  strict := false
  format := .text
  verbose := false

def mixedText : String := "    B:\n      enum: ['x']\n"

def mixedHeap : Heap :=
  numberHeap [(.str "B", .map 3)] [.entries [(.str "enum", .list 4)], .items [.str "x"]]

theorem read_number {more : String} {heap : Heap}
    (h : (Source.schemas (numberTree more) numberOptions.schemas).toOption = some (heap, 2)) :
    Source.schemas (numberTree more) numberOptions.schemas = .ok (heap, 2) := by
  cases hschemas : Source.schemas (numberTree more) numberOptions.schemas with
  | error e =>
    rw [hschemas] at h
    cases h
  | ok document =>
    rw [hschemas] at h
    cases h
    rfl

/-- A run that can look for its configuration tells all findings of its document if there are
declarations and the report can be printed. Without declarations it says no more than that, and a report
that cannot be printed breaks off where a text of it closes a style. -/
theorem findings_shown {target : Target} {heap : Heap} {a : Address} {ds : List Declaration}
    (hwide : 23 ≤ console.width) (hwords : Command.ofWords t words = .ok (.generate o))
    (htarget : Target.find? o.target = some target)
    (hread : Source.schemas t o.schemas = .ok (heap, a))
    (hlowered : Lowering.schemas heap Lowering.defaultLimit (heap.entries a) = ⟨.ok ds, found⟩) :
    ∃ result, run console t words = .ok result ∧
      match Source.findConfig t o.config (some o.schemas) with
      | .error _ => result.code = 1
      | .ok config =>
        let report := (Batch.mk target config ds).report found
        ds = [] ∧ result.code = 1 ∧ result.session.out = [] ∧
            (noSchemas o.schemas).lines console = .ok result.session.err ∧
            (o.verbose = false → result.log = []) ∨
          ds ≠ [] ∧ CanShow o.format o.schemas report ∧
            (∀ d ∈ found, d.IsNamedIn result.session.err) ∨
          ds ≠ [] ∧ ¬ CanShow o.format o.schemas report ∧ ¬ report.IsFree ∧
            result.code = 1 ∧ result.session.out = [] ∧
            BreaksOff console (shownReport o.format o.schemas report) result.session.err ∧
            (o.verbose = false → result.log = []) := by
  obtain ⟨hsplit, _⟩ := isSplit_of_words hwords
  cases hconfig : Source.findConfig t o.config (some o.schemas) with
  | error e =>
    have hon : (generateCode o).on (.start console t) =
        (.error (.failed (.file e)), .start console t) := by
      rw [generateCode, on_bind, on_prepare_error (s := .start console t) htarget hconfig]
    obtain ⟨result, hrun, hcode, _⟩ := run_of_failed hwords hon
    exact ⟨result, hrun, hcode⟩
  | ok config =>
    have hfindings : ∀ d ∈ found, d.IsFinding := by
      have hrecords := Lowering.records_schemas heap Lowering.defaultLimit (heap.entries a)
      rwa [hlowered] at hrecords
    have hasRead : HasRead t o ⟨target, config, ds⟩ found :=
      ⟨htarget, hconfig, heap, a, hread, hlowered⟩
    obtain ⟨log, lines, hquiet, hnone | hshown | hstray⟩ :=
      generateCode_of_read (s := .start console t) hwide hasRead hsplit
    · obtain ⟨hempty, hlines, hon⟩ := hnone
      obtain ⟨result, hrun, hcode, hout, rfl, hlog⟩ := run_of_told hwords hon hquiet
      exact ⟨result, hrun, .inl ⟨hempty, hcode, hout, hlines, hlog⟩⟩
    · obtain ⟨hne, hshown, hnamed, hgrows⟩ := hshown
      obtain ⟨result, hrun, herr⟩ := exists_run hwords
      refine ⟨result, hrun, .inr (.inl ⟨hne, hshown, fun d hd => ?_⟩)⟩
      have hd' : d ∈ ((Batch.mk target config ds).report found).diagnostics := List.mem_append_left _ hd
      exact (hnamed d hd' (hfindings d hd)).mono (hgrows.trans herr).subset
    · obtain ⟨hne, hstray, hbreaks, hon⟩ := hstray
      obtain ⟨result, hrun, hcode, hout, rfl, hlog⟩ := run_of_told hwords hon hquiet
      refine ⟨result, hrun, .inr (.inr ⟨hne, hstray, fun hfree => ?_, hcode, hout, hbreaks, hlog⟩)⟩
      exact hstray (canShow_of_free hfree _ _)

/-- With another schema in the document the finding is shown, although nothing is generated. -/
theorem mixed_findings_shown :
    Command.ofWords (numberTree mixedText) numberWords = .ok (.generate numberOptions) ∧
      Source.schemas (numberTree mixedText) numberOptions.schemas = .ok (mixedHeap, 2) ∧
      Lowering.schemas mixedHeap Lowering.defaultLimit (mixedHeap.entries 2) =
        ⟨.ok [.enum "B" "" ["x"]], [numberFound]⟩ ∧
      ∃ result, run plainConsole (numberTree mixedText) numberWords = .ok result ∧
        numberFound.IsNamedIn result.session.err := by
  have hwords : Command.ofWords (numberTree mixedText) numberWords = .ok (.generate numberOptions) := by
    decide +kernel
  have hread : Source.schemas (numberTree mixedText) numberOptions.schemas = .ok (mixedHeap, 2) :=
    read_number (by decide +kernel)
  have hlowered : Lowering.schemas mixedHeap Lowering.defaultLimit (mixedHeap.entries 2) =
      ⟨.ok [.enum "B" "" ["x"]], [numberFound]⟩ := rfl
  have hconfig : Source.findConfig (numberTree mixedText) numberOptions.config
      (some numberOptions.schemas) = .ok none := rfl
  have hwide : 23 ≤ plainConsole.width := by decide
  obtain ⟨result, hrun, hends⟩ := findings_shown hwide hwords rfl hread hlowered
  refine ⟨hwords, hread, hlowered, result, hrun, ?_⟩
  rw [hconfig] at hends
  rcases hends with ⟨hempty, _⟩ | ⟨_, _, hnamed⟩ | ⟨_, _, hstray, _⟩
  · cases hempty
  · exact hnamed numberFound List.mem_cons_self
  · exact absurd (by decide) hstray

/-- The only schema of a document is skipped, and the run ends without a word about it. -/
theorem skipped_schema_untold :
    Command.ofWords (numberTree "") numberWords = .ok (.generate numberOptions) ∧
      Target.find? numberOptions.target = some .ioTs ∧
      Source.schemas (numberTree "") numberOptions.schemas = .ok (numberHeap [] [], 2) ∧
      Lowering.schemas (numberHeap [] []) Lowering.defaultLimit ((numberHeap [] []).entries 2) =
        ⟨.ok [], [numberFound]⟩ ∧
      numberFound.severity = .error ∧
      ∃ result, run plainConsole (numberTree "") numberWords = .ok result ∧ result.code = 1 ∧
        result.log = [] ∧
        ¬ numberFound.IsNamedIn (result.session.out ++ result.session.err) := by
  have hwords : Command.ofWords (numberTree "") numberWords = .ok (.generate numberOptions) := by
    decide +kernel
  have hread : Source.schemas (numberTree "") numberOptions.schemas = .ok (numberHeap [] [], 2) :=
    read_number (by decide +kernel)
  have hasRead : HasRead (numberTree "") numberOptions ⟨.ioTs, none, []⟩ [numberFound] :=
    ⟨rfl, rfl, numberHeap [] [], 2, hread, rfl⟩
  refine ⟨hwords, rfl, hread, rfl, rfl, ?_⟩
  obtain ⟨log, lines, hquiet, hnone | ⟨hne, _⟩ | ⟨hne, _⟩⟩ :=
    generateCode_of_read (s := .start plainConsole (numberTree "")) (by decide) hasRead
      (Path.isSplit_ofString "api.yaml")
  · obtain ⟨_, hlines, hon⟩ := hnone
    obtain ⟨result, hrun, hcode, hout, rfl, hlog⟩ := run_of_told hwords hon hquiet
    refine ⟨result, hrun, hcode, hlog rfl, ?_⟩
    have htext : ((noSchemas numberOptions.schemas).lines plainConsole).toOption =
        some ["", "✗ No schemas found in api.yaml", ""] := by
      decide +kernel
    change (noSchemas numberOptions.schemas).lines plainConsole = _ at hlines
    rw [hlines] at htext
    rw [hout, Option.some.inj htext]
    decide
  · exact absurd rfl hne
  · exact absurd rfl hne

end SchemaCompiler.CommandLine
