import SchemaCompiler.Diagnostic
import SchemaCompiler.Terminal.Block

/-! The two ways of showing a report: as a text with one paragraph a diagnostic, and as a grid. -/
namespace SchemaCompiler

/-- The file of the schemas, if it is known, and how many problems there are. -/
def Report.summary (r : Report) (source : Option String) : Block :=
  let file := match source with
    | some source => s!"File: {source}\n"
    | none => ""
  let errors := r.errors.length
  let warnings := r.warnings.length
  let counts := (if errors > 0 then [s!"Errors: {errors}"] else []) ++
    (if warnings > 0 then [s!"Warnings: {warnings}"] else [])
  .panel (if errors > 0 then "Schema Problems" else "Schema Warnings")
    (.plain (file ++ "  ".intercalate counts))

/-- A diagnostic, its place and its suggestion. -/
def Diagnostic.page (d : Diagnostic) (color : String) : List Block :=
  let label := s!"[{color} bold]{d.severity.label}[/{color} bold]"
  let head := s!"{label} [{color}]\\[{d.code}][/{color}] {d.message}"
  let place := match d.path with
    | some path => [s!"  [dim]at {path}[/dim]"]
    | none => []
  let hint := match d.suggestion with
    | some hint => if hint == "" then [] else [s!"  [green]💡 {hint}[/green]"]
    | none => []
  (head :: place ++ hint).map fun s => .paragraph (.markup s)

/-- The report as a text: a summary, all errors and then all warnings. -/
def Report.page (r : Report) (source : Option String) : List Block :=
  if r.isValid && r.warnings.isEmpty then
    [.paragraph (.markup "[green]✓ No schema problems found[/green]")]
  else
    r.summary source :: r.errors.flatMap (·.page "red") ++ r.warnings.flatMap (·.page "yellow")

/-- The report as a grid with one row a diagnostic, in their order. -/
def Report.table (r : Report) : Grid :=
  let severity (s : Severity) : String :=
    let color := if s == .error then "red" else "yellow"
    s!"[{color}]{s.label}[/{color}]"
  { title := "Schema Diagnostics"
    columns := [⟨"Code", some 6⟩, ⟨"Severity", some 8⟩, ⟨"Location", none⟩, ⟨"Message", none⟩]
    headed := true
    rows := r.diagnostics.map fun d => [d.code, severity d.severity, d.path.getD "-", d.message] }

def Report.grid (r : Report) : Block := .grid r.table

end SchemaCompiler
