import SchemaCompiler.FileTree
import SchemaCompiler.Layout
import SchemaCompiler.Lowering
import SchemaCompiler.Target.Builtin
import SchemaCompiler.Text.Utf8
import SchemaCompiler.Yaml.Token

/-! Everything that can stop a run, with its message. -/
namespace SchemaCompiler

/-- Why a document of schemas cannot be loaded. -/
inductive LoadCause where
  | notFound
  | notFile
  | extension (given : String)
  | malformed
  | unreadable (e : FileError)
  | empty
  | rootNotMapping (kindName : String)
  | componentsNotMapping
  | schemasNotMapping

structure LoadError where
  path : String
  cause : LoadCause

def LoadCause.message (path : String) : LoadCause → String
  | .notFound => s!"File not found: {path}"
  | .notFile => s!"Not a file: {path}"
  | .extension given => s!"Unsupported file extension: {given}. Use .yaml, .yml, or .json"
  | .malformed => "YAML parsing error"
  | .unreadable e => s!"File read error: {e.message}"
  | .empty => "File is empty"
  | .rootNotMapping kind => s!"Expected dictionary at root level, got {kind}"
  | .componentsNotMapping => "'components' must be a mapping"
  | .schemasNotMapping => "'components.schemas' must be a mapping"

def LoadError.message (e : LoadError) : String := s!"{e.path}: {e.cause.message e.path}"

/-- Why a configuration cannot be used. -/
inductive ConfigCause where
  | malformed
  | unreadable (e : FileError)
  | invalid (problems : List Config.Problem)
  | unusable (e : RegistryError)
  | unknownTarget (name : String)

structure ConfigError where
  /-- The file that the configuration comes from. -/
  path : Option String
  cause : ConfigCause

def ConfigCause.message : ConfigCause → String
  | .malformed => "YAML parsing error"
  | .unreadable e => s!"File read error: {e.message}"
  | .invalid problems => Config.invalid problems
  | .unusable e => e.message
  | .unknownTarget name => Target.unknownName name

def ConfigError.message (e : ConfigError) : String :=
  match e.path with
  | some path => s!"{path}: {e.cause.message}"
  | none => e.cause.message

/-- The single problems of a configuration. -/
def ConfigError.details (e : ConfigError) : List String :=
  match e.cause with
  | .invalid problems => problems.map Config.Problem.text
  | _ => []

/-- Why output cannot be written. -/
inductive WriteCause where
  | folder (e : FileError)
  | file (e : FileError)

structure WriteError where
  path : String
  cause : WriteCause

def WriteError.message (e : WriteError) : String :=
  match e.cause with
  | .folder cause => s!"{e.path}: cannot create output folder: {cause.message}"
  | .file cause => s!"{e.path}: cannot write file: {cause.message}"

inductive Failure where
  | load (e : LoadError)
  | config (e : ConfigError)
  /-- A registry that is frozen. -/
  | frozen (target : String)
  | lowering (e : LoweringError)
  | render (e : RenderFailure)
  | write (e : WriteError)
  /-- Diagnostics that block generation. -/
  | blocked (r : Report)
  /-- A file that is not UTF-8. -/
  | encoding (f : Text.Utf8Fault)
  | fault (f : Yaml.Fault)
  | file (e : FileError)

def Failure.message : Failure → String
  | .load e => e.message
  | .config e => e.message
  | .frozen target => (RegistryError.frozen target).message
  | .lowering e => e.message
  | .render e => e.message
  | .write e => e.message
  | .blocked r => r.failure
  | .encoding f => f.message
  | .fault f => f.message
  | .file e => e.message

end SchemaCompiler
