import SchemaCompiler.CommandLine.Words
import SchemaCompiler.Source

/-! The commands of the program, and how words are read as one of them. -/
namespace SchemaCompiler.CommandLine

/-- How diagnostics are shown. -/
inductive Format where
  | text
  | grid
deriving DecidableEq

structure GenerateOptions where
  schemas : Path
  folder : Option Path
  target : String
  package : Option String
  config : Option Path
  strict : Bool
  format : Format
  verbose : Bool
deriving DecidableEq

structure InspectOptions where
  schemas : Path
  format : Format
  verbose : Bool
deriving DecidableEq

structure ExampleOptions where
  output : Path
  target : String
  force : Bool
deriving DecidableEq

inductive Command where
  | help
  | version
  | generate (o : GenerateOptions)
  | inspect (o : InspectOptions)
  | exampleConfig (o : ExampleOptions)
  | languages
deriving DecidableEq

def helpOption : OptionName := { long := "--help", takesValue := false }

def programOptions : List OptionName :=
  [{ long := "--version", letter := 'v', takesValue := false }, helpOption]

def generateOptions : List OptionName :=
  [{ long := "--out", letter := 'o' }, { long := "--lang", letter := 'l' },
    { long := "--package", letter := 'p' }, { long := "--config", letter := 'c' },
    { long := "--strict", takesValue := false }, { long := "--format", letter := 'f' },
    { long := "--verbose", letter := 'V', takesValue := false }, helpOption]

def inspectOptions : List OptionName :=
  [{ long := "--format", letter := 'f' },
    { long := "--verbose", letter := 'V', takesValue := false }, helpOption]

def exampleOptions : List OptionName :=
  [{ long := "--output", letter := 'o' }, { long := "--lang", letter := 'l' },
    { long := "--force", takesValue := false }, helpOption]

/-- What is at a path, if it leads anywhere. No path holds the character NUL or what has no encoding. -/
def entryAt (t : FileTree) (s : String) : Except UsageError (Option FileEntry) :=
  match t.find (.ofString s) with
  | .ok e => return some e
  | .error (.refused ..) => return none
  | .error _ => throw (.unfitPath s)

/-- A path that must not be a folder. -/
def filePath (t : FileTree) (s : String) : Except UsageError Path := do
  match ← entryAt t s with
  | some .folder => throw (.unfitPath s)
  | _ => return .ofString s

/-- A path that must not be a file. -/
def folderPath (t : FileTree) (s : String) : Except UsageError Path := do
  match ← entryAt t s with
  | some (.file _) => throw (.unfitPath s)
  | _ => return .ofString s

/-- The path of a file that is there. -/
def schemaFile (t : FileTree) (s : String) : Except UsageError Path :=
  let p := (Path.ofString s).resolved
  match t.find p with
  | .ok (.file _) => return p
  | _ => throw (.unfitPath s)

def optionalPath (check : String → Except UsageError Path) :
    Option String → Except UsageError (Option Path)
  | none => return none
  | some s => some <$> check s

def noOthers : List String → Except UsageError Unit
  | [] => return ()
  | word :: _ => throw (.extraWord word)

/-- The only word that is no option. -/
def onlyOther : List String → Except UsageError String
  | [] => throw .missingFile
  | word :: rest => do
    noOthers rest
    return word

namespace Words

def format (w : Words) : Format := if w.value? "--format" == some "table" then .grid else .text

def target (w : Words) : String := (w.value? "--lang").getD Target.default.name

end Words

def readGenerate (t : FileTree) (w : Words) : Except UsageError Command := do
  let folder ← optionalPath (folderPath t) (w.value? "--out")
  let config ← optionalPath (filePath t) (w.value? "--config")
  let schemas ← schemaFile t (← onlyOther w.others)
  return .generate ⟨schemas, folder, w.target, w.value? "--package", config, w.has "--strict",
    w.format, w.has "--verbose"⟩

def readInspect (t : FileTree) (w : Words) : Except UsageError Command := do
  let schemas ← schemaFile t (← onlyOther w.others)
  return .inspect ⟨schemas, w.format, w.has "--verbose"⟩

def readExample (t : FileTree) (w : Words) : Except UsageError Command := do
  let output ← filePath t ((w.value? "--output").getD Source.configName)
  noOthers w.others
  return .exampleConfig ⟨output, w.target, w.has "--force"⟩

/-- The command of some words, which `read` makes of them unless help is asked for. -/
def readCommand (known : List OptionName) (read : Words → Except UsageError Command)
    (words : List String) : Except UsageError Command := do
  let w ← readWords known true words
  if w.has "--help" then return .help else read w

/-- The command that the words after the program's name ask for. -/
def Command.ofWords (t : FileTree) (words : List String) : Except UsageError Command := do
  let w ← readWords programOptions false words
  match w.options.head? with
  | some (option, _) => return if option == "--version" then .version else .help
  | none =>
    match w.others with
    | [] => throw .noCommand
    | "generate" :: rest => readCommand generateOptions (readGenerate t) rest
    | "inspect" :: rest => readCommand inspectOptions (readInspect t) rest
    | "example-config" :: rest => readCommand exampleOptions (readExample t) rest
    | "languages" :: rest =>
      readCommand [helpOption] (fun w => do noOthers w.others; return .languages) rest
    | name :: _ => throw (.unknownCommand name)

end SchemaCompiler.CommandLine
