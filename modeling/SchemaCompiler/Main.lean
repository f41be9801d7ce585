import SchemaCompiler.CommandLine.Run

/-!
The program on a real disk. A run is a function of a file tree, so it is run on what has been looked
up so far until it changes nothing that was not looked up before; then its changes are written.
-/
namespace SchemaCompiler.Disk

/-- What is on the disk at a path. Only folders can be entered. -/
def entryAt? (p : Path) : IO (Option FileEntry) := do
  try
    return some (.file (← IO.FS.readBinFile p.text))
  catch _ =>
    try
      let _ ← IO.FS.realPath (p.text ++ "/.")
      return some .folder
    catch _ => return none

/-- A path with the folders above it, the outermost one first. -/
def ancestors (p : Path) : List Path :=
  (List.range p.parts.length).map fun n => ⟨p.root, p.parts.take (n + 1)⟩

/-- The tree with what is at a path and at the folders above it. -/
def lookUp (t : FileTree) (p : Path) : IO FileTree :=
  (ancestors p).foldlM (fun t p => do
    match ← entryAt? p with
    | some e => return t.place p e
    | none => return t) t

/-- The paths that a word may name, also as the value of an option, with the configuration files
beside them. -/
def pathsIn (word : String) : List Path :=
  let cs := word.toList
  [cs, cs.drop 2, (cs.dropWhile (· != '=')).drop 1].flatMap fun cs =>
    let p := Path.ofString (String.ofList cs)
    [p, p.resolved, p.resolved.parent.join (.ofString Source.configName)]

/-- As wide as lines are where nothing says how wide they are. -/
def console : Console := ⟨80, .none⟩

/-- Runs on a tree, and again for as long as the run touches paths that are not in `known`. -/
def settle (words : List String) : (rounds : Nat) → FileTree → List Path →
    IO (FileTree × Except CommandLine.UsageError CommandLine.Result)
  | 0, t, _ => return (t, CommandLine.run console t words)
  | rounds + 1, t, known => do
    let result := CommandLine.run console t words
    let touched : List Path := match result with
      | .ok r => (t.changes r.session.world.tree).map fun (l, _) => l.path
      | .error _ => []
    let fresh := touched.filter (!known.contains ·)
    if fresh.isEmpty then return (t, result)
    settle words rounds (← fresh.foldlM lookUp t) (known ++ fresh)

def store (change : Location × FileEntry) : IO Unit := do
  let p := change.1.path
  match change.2 with
  | .folder => IO.FS.createDirAll p.text
  | .file content =>
    IO.FS.createDirAll p.parent.text
    IO.FS.writeBinFile p.text content

/-- The program, with the words after its name; the result is its exit code. -/
def run (words : List String) : IO UInt32 := do
  let named := Path.ofString Source.configName :: words.flatMap pathsIn
  let tree ← named.foldlM lookUp { entries := [], surrogates := some .privateUse }
  let (before, result) ← settle words 8 tree named
  match result with
  | .error e =>
    IO.eprintln s!"Error: {e.message}"
    return 2
  | .ok r =>
    (before.changes r.session.world.tree).forM store
    r.log.forM fun l => IO.eprintln l.text
    r.session.out.forM fun line => IO.println line
    r.session.err.forM fun line => IO.eprintln line
    return r.code.toUInt32

end SchemaCompiler.Disk

def main (words : List String) : IO UInt32 := SchemaCompiler.Disk.run words
