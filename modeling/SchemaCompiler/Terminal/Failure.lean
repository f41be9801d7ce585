import SchemaCompiler.Failure
import SchemaCompiler.Terminal.Report

/-! How a failure is shown to the user. -/
namespace SchemaCompiler

def ConfigError.page (e : ConfigError) : List Block :=
  let hint := [.paragraph (.markup
    "[green]💡 Run 'dto-forge example-config' for a documented template[/green]")]
  [.paragraph (.markup "[red bold]Configuration Invalid[/red bold]"),
    .paragraph (.markup s!"  {e.message}")] ++
  e.details.map (fun detail => .paragraph (.markup s!"[red]✗[/red] {detail}")) ++
  (if e.details.isEmpty then [] else hint)

namespace Failure

def errorPanel (s : String) : Block := .panel "Error" (.markup s)

/-- A failure to read or to write files. -/
def filePage (message : String) : List Block :=
  [errorPanel s!"[red]{message}[/red]\n\nPlease check that the path is correct and accessible."]

def generationPage (message : String) : List Block :=
  [errorPanel s!"[red]Generation failed:[/red]\n{message}"]

/-- A failure that says nothing about its cause to users. -/
def unexpectedPage (verbose : Bool) (message : String) : List Block :=
  errorPanel s!"[red]An unexpected error occurred:[/red]\n{message}" ::
    (if verbose then [] else [.paragraph (.markup "\n[dim]Use --verbose for full traceback[/dim]")])

def page (verbose : Bool) (f : Failure) : List Block :=
  match f with
  | .blocked r => r.page none ++ [.paragraph (.markup s!"[red bold]✗ {f.message}[/red bold]")]
  | .config e => e.page
  | .load _ | .write _ => filePage f.message
  | .frozen _ | .render (.blamed _) | .lowering (.selfContained _) | .lowering (.tooDeep ..) =>
    generationPage f.message
  | .lowering (.unhashableType _) | .lowering .numberTooLong | .render (.unblamed _) | .encoding _
  | .fault _ | .file _ =>
    unexpectedPage verbose f.message

end Failure
end SchemaCompiler
