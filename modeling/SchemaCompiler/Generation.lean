import SchemaCompiler.Source

/-!
A generation run: settle the configuration, plan all files, create the output folder, and write the
files one after the other. A run that stops leaves what it has written.
-/
namespace SchemaCompiler

/-- What runs act on: the file tree, and the log from the first line to the last. -/
structure World where
  tree : FileTree
  log : List LogLine

/-- An activity that may fail, and that keeps what it did until then. -/
abbrev Activity (α : Type) := ExceptT Failure (StateM World) α

namespace Activity

def log (lines : List LogLine) : Activity Unit :=
  modify fun w => { w with log := w.log ++ lines }

def logAt (level : Level) (message : String) : Activity Unit := log [⟨level, message⟩]

def setTree (t : FileTree) : Activity Unit := modify fun w => { w with tree := t }

def ofExcept (f : ε → Failure) : Except ε α → Activity α
  | .ok a => pure a
  | .error e => throw (f e)

end Activity

/-- How an error of a registry counts when its configuration comes from a file. -/
def RegistryError.failure (path : Option String) : RegistryError → Failure
  | .frozen target => .frozen target
  | e => .config ⟨path, .unusable e⟩

/-- The registry after it has taken a configuration file, and whether there was one. -/
structure Loaded where
  registry : Registry
  log : List LogLine
  outcome : Except Failure Bool

namespace Registry

def applyConfig (r : Registry) (path : Option String) (d : Config.Document) : Loaded :=
  let change := r.apply d
  ⟨change.registry, change.log,
    match change.outcome with
    | .ok () => .ok true
    | .error e => .error (e.failure path)⟩

/-- Takes a configuration file; a missing one changes nothing. -/
def load (r : Registry) (t : FileTree) (p : Path) : Loaded :=
  if r.frozen then ⟨r, [], .error (.frozen r.target.name)⟩
  else
    match Source.config t p with
    | .error e => ⟨r, [], .error e⟩
    | .ok none =>
      ⟨r, [⟨.debug, s!"config file {p.text} not found, using defaults"⟩], .ok false⟩
    | .ok (some d) =>
      let loaded := r.applyConfig (some p.text) d
      match loaded.outcome with
      | .error _ => loaded
      | .ok _ =>
        { loaded with log := loaded.log ++ [⟨.debug, s!"loaded config from {p.text}"⟩] }

theorem target_load (r : Registry) (t : FileTree) (p : Path) :
    (r.load t p).registry.target = r.target := by
  rw [load]
  split
  · rfl
  · split
    · rfl
    · rfl
    · dsimp only
      split
      · exact target_apply _ _
      · exact target_apply _ _

end Registry

/-- Writes an example configuration for a target. -/
def Target.saveExample (t : Target) (tree : FileTree) (p : Path) :
    FileTree × Except FileError Unit :=
  match tree.ensureFolders p.parent with
  | (tree, .error e) => (tree, .error e)
  | (tree, .ok ()) => tree.write p (SourceText.exampleConfig t)

/-- What a run ends with that cannot make or write what is to be at a path. Only what the file system
refuses is reported with the path. -/
def FileError.failure (path : Path) (report : FileError → WriteCause) : FileError → Failure
  | .refused cause at' => .write ⟨path.text, report (.refused cause at')⟩
  | e => .file e

/-- Where a planned file goes. -/
def PlannedFile.path (f : PlannedFile) (folder : Path) : Path := folder.join (.ofString f.name)

namespace Generation

structure Options where
  /-- The configured folder when there is none. -/
  folder : Option Path := none
  configFile : Option Path := none
  packageName : Option String := none

/-- What a run that went through has done. -/
structure Outcome where
  folder : Path
  mode : Mode
  names : List String
  symbols : List String
  written : List Path
  skipped : List Path

open Activity

/-- The frozen registry of a run. -/
def registry (t : Target) (configFile : Option Path) : Activity Registry := do
  let r := Registry.defaults t
  match configFile with
  | none => return r.freeze
  | some p =>
    let loaded := r.load (← get).tree p
    log loaded.log
    let _ ← ofExcept id loaded.outcome
    return loaded.registry.freeze

/-- Whether a file is kept that is already where a planned one goes. -/
def keeps (folder : Path) (file : PlannedFile) : Activity Bool := do
  if file.overwrite then return false
  else ofExcept Failure.file ((← get).tree.exists? (file.path folder))

/-- Writes a planned file over anything that is there. -/
def overwrite (folder : Path) (file : PlannedFile) : Activity Unit := do
  let p := file.path folder
  let (tree, result) := (← get).tree.write p file.content
  setTree tree
  ofExcept (·.failure p .file) result
  logAt .debug s!"wrote {p.text}"

/-- Writes a planned file; `false` when an existing file is kept. -/
def write (folder : Path) (file : PlannedFile) : Activity Bool := do
  if ← keeps folder file then
    logAt .warning s!"keeping existing {(file.path folder).text}"
    return false
  else
    overwrite folder file
    return true

def createFolder (folder : Path) : Activity Unit := do
  let (tree, result) := (← get).tree.ensureFolders folder
  setTree tree
  ofExcept (·.failure folder .folder) result

/-- Writes files in order, and tells for each whether it was written. -/
def writeAll (folder : Path) : List PlannedFile → Activity (List (Path × Bool))
  | [] => return []
  | file :: rest => do
    let written ← write folder file
    return (file.path folder, written) :: (← writeAll folder rest)

/-- The plan for declarations, as the log sees it. -/
def plan (r : Registry) (package : Option String) (ds : List Declaration) : Activity Plan := do
  log (Layout.duplicateWarnings [] ds)
  let p ← ofExcept Failure.render (Layout.ofDeclarations r package ds)
  log [Layout.planned p]
  return p

def outputFolder (r : Registry) (options : Options) : Path :=
  options.folder.getD (.ofString r.output.folder)

/-- Generates code for a batch of declarations under the settings of a registry. -/
def emit (r : Registry) (ds : List Declaration) (options : Options) : Activity Outcome := do
  let p ← plan r options.packageName ds
  let folder := outputFolder r options
  createFolder folder
  let files ← writeAll folder p.files
  let written := (files.filter (·.2)).map (·.1)
  let names := (Layout.ordered ds).map (·.name)
  logAt .info
    s!"generated {names.length} DTOs into {folder.text} ({written.length} files written)"
  return ⟨folder, p.mode, names, p.symbols, written, (files.filter (!·.2)).map (·.1)⟩

/-- Generates code for a batch of declarations. -/
def run (t : Target) (ds : List Declaration) (options : Options) : Activity Outcome := do
  emit (← registry t options.configFile) ds options

end Generation
end SchemaCompiler
