import SchemaCompiler.Failure
import SchemaCompiler.Yaml.Read

/-! Loading of schema documents and of configuration files from a file tree. -/
namespace SchemaCompiler.Source

/-- The name under which a configuration file is looked for. -/
def configName : String := "dtoforge.config.yaml"

/-- Line ends as line feeds. -/
def lineFeeds : List Char → List Char
  | '\r' :: '\n' :: rest => '\n' :: lineFeeds rest
  | '\r' :: rest => '\n' :: lineFeeds rest
  | c :: rest => c :: lineFeeds rest
  | [] => []

/-- The document in a file. What the two ways of failing to read it count as is up to the caller. -/
def document (t : FileTree) (p : Path) (malformed : Failure) (unreadable : FileError → Failure) :
    Except Failure Document := do
  match t.read p with
  | .error e => throw (unreadable e)
  | .ok content =>
    match Text.utf8Fault? content.toList with
    | some fault => throw (.encoding fault)
    | none =>
      let text := (String.fromUTF8? content).getD ""
      match Yaml.read (String.ofList (lineFeeds text.toList)) with
      | .ok d => return d
      | .error .malformed => throw malformed
      | .error (.fault f) => throw (.fault f)

def extensions : List String := [".yaml", ".yml", ".json"]

/-- The mapping in a file of schemas; `a` is its address. -/
def mapping (t : FileTree) (p : Path) : Except Failure (Heap × Address) := do
  let refuse {α : Type} (cause : LoadCause) : Except Failure α :=
    throw (.load ⟨p.text, cause⟩)
  match t.find? p with
  | .error e => throw (.file e)
  | .ok none => refuse .notFound
  | .ok (some .folder) => refuse .notFile
  | .ok (some (.file _)) =>
    let extension := Text.lower p.extension
    if !extensions.contains extension then refuse (.extension extension)
    let d ← document t p (.load ⟨p.text, .malformed⟩) fun e => .load ⟨p.text, .unreadable e⟩
    match d.root with
    | .map a => return (d.heap, a)
    | .scalar .null => refuse .empty
    | v => refuse (.rootNotMapping v.kindName)

/-- The schemas of an OpenAPI document; there are none when the document has no such section. -/
def schemas (t : FileTree) (p : Path) : Except Failure (Heap × Address) := do
  let (h, document) ← mapping t p
  let nothing (h : Heap) : Heap × Address := ((h.add (.entries [])).2, (h.add (.entries [])).1)
  match (h.find? document "components").getD .null with
  | .scalar .null => return nothing h
  | .map components =>
    match (h.find? components "schemas").getD .null with
    | .scalar .null => return nothing h
    | .map schemas => return (h, schemas)
    | _ => throw (.load ⟨p.text, .schemasNotMapping⟩)
  | _ => throw (.load ⟨p.text, .componentsNotMapping⟩)

/-- A configuration from raw data. -/
def parseConfig (path : Option String) (d : Document) : Except Failure Config.Document :=
  match Config.Document.ofRaw d.heap d.root with
  | .ok document => .ok document
  | .error problems => .error (.config ⟨path, .invalid problems⟩)

/-- The configuration in a file; none when there is no such file. -/
def config (t : FileTree) (p : Path) : Except Failure (Option Config.Document) := do
  match t.exists? p with
  | .error e => throw (.file e)
  | .ok false => return none
  | .ok true =>
    let d ← document t p (.config ⟨some p.text, .malformed⟩)
      fun e => .config ⟨some p.text, .unreadable e⟩
    some <$> parseConfig (some p.text) d

/-- The configuration file to use: the one asked for, or else one in the current folder, or else
one beside the schemas. -/
def findConfig (t : FileTree) (asked schemas : Option Path) : Except FileError (Option Path) := do
  match asked with
  | some p => return some p
  | none =>
    let beside := schemas.map fun p => p.parent.join (.ofString configName)
    let candidates := Path.ofString configName :: beside.toList
    for p in candidates do
      if ← t.isFile? p then return some p
    return none

end SchemaCompiler.Source
