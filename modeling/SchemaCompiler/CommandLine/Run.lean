import SchemaCompiler.CommandLine.Command
import SchemaCompiler.Generation
import SchemaCompiler.Lint
import SchemaCompiler.Terminal.Failure

/-!
Running a command. A run changes the file tree, writes a log, prints on the two streams of the
terminal, and ends with an exit code.
-/
namespace SchemaCompiler.CommandLine

inductive Stream where
  | out
  | err
deriving DecidableEq

/-- What a run acts on. The lines of each stream are kept from the first to the last. -/
structure Session where
  console : Console
  world : World
  out : List String
  err : List String

/-- Why a run ends early. -/
inductive Stop where
  | failed (f : Failure)
  | exit (code : Nat)

/-- An activity of the program. What it did until it stopped stays. -/
abbrev Run (α : Type) := ExceptT Stop (StateM Session) α

namespace Run

def exit {α : Type} (code : Nat) : Run α := throw (.exit code)

def fail {α : Type} (f : Failure) : Run α := throw (.failed f)

def ofExcept {α ε : Type} (f : ε → Failure) : Except ε α → Run α
  | .ok a => pure a
  | .error e => fail (f e)

/-- An activity of a generation run as a part of this one. -/
def activity {α : Type} (a : Activity α) : Run α := do
  let s ← get
  let (result, world) := (a.run.run s.world : Except Failure α × World)
  set { s with world }
  ofExcept id result

/-- Prints a block. Wrong markup cannot be reported to the user, since the report would hold it. -/
def print (stream : Stream) (b : Block) : Run Unit := do
  match b.lines (← get).console with
  | .error _ => exit 1
  | .ok lines =>
    modify fun s =>
      match stream with
      | .out => { s with out := s.out ++ lines }
      | .err => { s with err := s.err ++ lines }

def printAll (stream : Stream) (blocks : List Block) : Run Unit := blocks.forM (print stream)

def say (stream : Stream) (markup : String) : Run Unit := print stream (.paragraph (.markup markup))

def tree : Run FileTree := do return (← get).world.tree

end Run

open Run

def findTarget (name : String) : Run Target :=
  match Target.find? name with
  | some t => pure t
  | none => fail (.config ⟨none, .unknownTarget name⟩)

/-- The declarations of a document of schemas, with the diagnostics about the document. -/
def declarations (schemas : Path) : Run (List Declaration × List Diagnostic) := do
  let (h, a) ← ofExcept id (Source.schemas (← tree) schemas)
  let entries := h.entries a
  let lowered := Lowering.schemas h Lowering.defaultLimit entries
  let ds ← ofExcept .lowering lowered.outcome
  activity (Activity.log [Lowering.walkedLine entries.length ds.length])
  return (ds, lowered.diagnostics)

def showReport (format : Format) (schemas : Path) (r : Report) : Run Unit :=
  match format with
  | .grid => print .err r.grid
  | .text => printAll .err (r.page (some schemas.text))

/-- What a generation run has done. -/
def outcomeGrid (t : Target) (o : Generation.Outcome) : Block :=
  .grid {
    title := s!"Generated {t.description}"
    columns := [⟨"Property", none⟩, ⟨"Value", none⟩]
    headed := false
    rows := [["Output", o.folder.text], ["Mode", o.mode.name], ["DTOs", toString o.names.length],
      ["Files written", toString o.written.length]] ++
      o.skipped.map fun p => ["Kept existing", p.name] }

/-- The configuration file of a run, if there is one. -/
def configFile (o : GenerateOptions) : Run (Option Path) := do
  let config ← ofExcept .file (Source.findConfig (← tree) o.config (some o.schemas))
  if let some p := config then
    activity (Activity.logAt .debug s!"using config file {p.text}")
  return config

/-- Ends a run without schemas. -/
def requireSchemas (o : GenerateOptions) (ds : List Declaration) : Run Unit := do
  if ds.isEmpty then
    say .err s!"\n✗ No schemas found in {o.schemas.name}\n"
    exit 1

/-- Shows a report, unless there is nothing in it. -/
def showFound (o : GenerateOptions) (r : Report) : Run Unit := do
  if !r.diagnostics.isEmpty then showReport o.format o.schemas r

/-- Ends a run whose report blocks generation. -/
def requireClear (o : GenerateOptions) (r : Report) : Run Unit := do
  if r.blocks o.strict then fail (.blocked r)

/-- What is generated, and under which configuration. -/
structure Batch where
  target : Target
  config : Option Path
  declarations : List Declaration

/-- The batch of a generation run. The run ends where something speaks against generating it. -/
def prepare (o : GenerateOptions) : Run Batch := do
  let t ← findTarget o.target
  let config ← configFile o
  let (ds, found) ← declarations o.schemas
  requireSchemas o ds
  let report : Report := ⟨found⟩ ++ lint Check.all ds
  showFound o report
  requireClear o report
  say .out s!"[green]✓ Parsed {ds.length} schemas from {o.schemas.name}[/green]"
  return ⟨t, config, ds⟩

/-- Generates a batch, and shows what was done. -/
def produce (o : GenerateOptions) (b : Batch) : Run Unit := do
  let outcome ← activity (Generation.run b.target b.declarations ⟨o.folder, b.config, o.package⟩)
  print .out (outcomeGrid b.target outcome)
  say .out s!"\n[bold green]✓ Generated code in {outcome.folder.text}[/bold green]\n"

def generateCode (o : GenerateOptions) : Run Unit := do produce o (← prepare o)

/-- The members of an enum or the fields of an object, with a question mark at optional ones. -/
def Declaration.summary (d : Declaration) : String :=
  let parts :=
    if d.isEnum then d.members
    else d.fields.map fun f => if f.required then f.name else f.name ++ "?"
  let s := ", ".intercalate parts
  if s == "" then "-" else s

def declarationGrid (ds : List Declaration) : Block :=
  .grid {
    title := "Schemas"
    columns := [⟨"Name", none⟩, ⟨"Kind", none⟩, ⟨"Properties / Values", none⟩]
    headed := true
    rows := (ds.mergeSort fun d e => d.name ≤ e.name).map fun d =>
      [d.name, if d.isEnum then "enum" else "object", Declaration.summary d] }

def inspectSchemas (o : InspectOptions) : Run Unit := do
  let (ds, found) ← declarations o.schemas
  let report : Report := ⟨found⟩ ++ lint Check.all ds
  print .out (declarationGrid ds)
  if report.diagnostics.isEmpty then
    say .out "[bold green]✓ No schema problems found[/bold green]"
  else showReport o.format o.schemas report

def writeExample (o : ExampleOptions) : Run Unit := do
  let taken ← ofExcept .file ((← tree).exists? o.output)
  if taken && !o.force then
    say .err s!"\n✗ Config file already exists: {o.output.text}\nUse --force to overwrite."
    exit 1
  let t ← findTarget o.target
  let (tree, result) := t.saveExample (← tree) o.output
  activity (Activity.setTree tree)
  ofExcept .file result
  say .out s!"[bold green]✓ Wrote example config to {o.output.text}[/bold green]"

def listTargets : Run Unit :=
  print .out (.grid {
    title := "Target Languages"
    columns := [⟨"Name", none⟩, ⟨"Library", none⟩, ⟨"Symbol suffix", none⟩]
    headed := true
    rows := (Target.available.filterMap Target.find?).map fun t =>
      [t.name, t.description, t.symbolSuffix] })

def programVersion : String := "0.1.0"

def helpText : String :=
  "Usage: dto-forge COMMAND\n\n" ++
  "generate FILE    Generate validator modules from an OpenAPI document.\n" ++
  "inspect FILE     Show the DTOs and diagnostics of an OpenAPI document.\n" ++
  "example-config   Write a fully commented example config file.\n" ++
  "languages        List the supported target languages."

def Command.run : Command → Run Unit
  | .help => print .out (.paragraph (.plain helpText))
  | .version => say .out s!"dto-forge version {programVersion}"
  | .generate o => generateCode o
  | .inspect o => inspectSchemas o
  | .exampleConfig o => writeExample o
  | .languages => listTargets

def Command.verbose : Command → Bool
  | .generate o => o.verbose
  | .inspect o => o.verbose
  | _ => false

/-- Shows a failure, after which the run ends. -/
def Command.runShown (c : Command) : Run Unit :=
  tryCatch c.run fun
    | .exit code => exit code
    | .failed f => do
      printAll .err (f.page c.verbose)
      exit 1

/-- What is left of a run. -/
structure Result where
  code : Nat
  session : Session
  /-- The lines of the log that are shown. -/
  log : List LogLine

/-- Runs the program on a file tree, with the words after its name. -/
def run (console : Console) (t : FileTree) (words : List String) : Except UsageError Result := do
  let c ← Command.ofWords t words
  let (result, session) := (c.runShown.run.run ⟨console, ⟨t, []⟩, [], []⟩ :
    Except Stop Unit × Session)
  let code := match result with
    | .ok () => 0
    | .error (.exit code) => code
    | .error (.failed _) => 1
  let least := if c.verbose then .debug else .warning
  return ⟨code, session, LogLine.ofLeast least session.world.log⟩

end SchemaCompiler.CommandLine
