import SchemaCompiler.SourceText

/-!
The layout of a run: which files it produces and what is in them. Either every declaration has a
module of its own and an index exports them all, or one file holds everything. Declarations are in
the order of their names.
-/
namespace SchemaCompiler

/-- A file below the output folder. One that is not to be overwritten is kept where it exists. -/
structure PlannedFile where
  name : String
  content : String
  overwrite : Bool := true
deriving DecidableEq

structure Plan where
  mode : Mode
  files : List PlannedFile
  symbols : List String
deriving DecidableEq

namespace Layout

def indexModule : String := "index"

def manifestName : String := "package.json"

/-- The declaration of a name among those known; the last one counts. -/
def known? (vs : List Rendered) (name : String) : Option Rendered :=
  vs.reverse.find? (·.name == name)

/-- The import lines for the other declarations that `v` refers to. -/
def siblingImports (vs : List Rendered) (v : Rendered) : List String :=
  (sortNames v.references).filterMap fun name =>
    match known? vs name with
    | none => none
    | some w => if w.name == v.name then none else some (SourceText.siblingImport w)

def moduleFile (r : Registry) (vs : List Rendered) (v : Rendered) : PlannedFile where
  name := v.moduleName ++ r.target.fileExtension
  content := SourceText.moduleText r.target (r.imports v.formats) (siblingImports vs v) v

def singleFile (r : Registry) (vs : List Rendered) : PlannedFile where
  name := r.output.singleFile
  content := SourceText.singleText r.target (r.imports (vs.flatMap (·.formats))) vs

def indexFile (r : Registry) (vs : List Rendered) : PlannedFile where
  name := indexModule ++ r.target.fileExtension
  content := SourceText.indexText (vs.map (·.moduleName))

def manifestFile (r : Registry) (packageName entryPoint : String) : PlannedFile where
  name := manifestName
  content := SourceText.manifestText r.target packageName entryPoint
  overwrite := false

/-- The first declaration whose module is reserved or belongs to an earlier one, in the order of
`vs`. `owners` holds the modules met so far with their declarations. -/
def clash? (owners : List (String × String)) : List Rendered → Option RenderError
  | [] => none
  | v :: rest =>
    if v.moduleName == indexModule then
      some ⟨v.name, none, .reservedModule v.moduleName⟩
    else
      match owners.lookup v.moduleName with
      | none => clash? ((v.moduleName, v.name) :: owners) rest
      | some owner =>
        if owner == v.name then clash? owners rest
        else some ⟨v.name, none, .sharedModule v.moduleName owner⟩

/-- The symbols that a declaration exports. -/
def exported (v : Rendered) : List String :=
  v.symbol :: (if v.hasPartial then [v.partialSymbol] else [])

/-- The name of the file that a package starts from. -/
def entryPoint (r : Registry) : String :=
  if r.isSingleFile then r.output.singleFile else indexModule ++ r.target.fileExtension

/-- The files of sorted declarations, manifest aside. -/
def sourceFiles (r : Registry) (vs : List Rendered) : Except RenderError (List PlannedFile) :=
  if r.isSingleFile then .ok [singleFile r vs]
  else
    match clash? [] vs with
    | some e => .error e
    | none => .ok (vs.map (moduleFile r vs) ++ [indexFile r vs])

/-- The package name of the caller, or else the configured one. -/
def packageName (r : Registry) (given : Option String) : String :=
  match given with
  | some name => if name == "" then r.packageName else name
  | none => r.packageName

/-- The plan for rendered declarations in any order. -/
def plan (r : Registry) (package : Option String) (vs : List Rendered) :
    Except RenderError Plan := do
  let ordered := vs.mergeSort (·.name ≤ ·.name)
  let sources ← sourceFiles r ordered
  let manifest :=
    if r.generation.manifest then [manifestFile r (packageName r package) (entryPoint r)] else []
  return ⟨r.output.mode, sources ++ manifest, ordered.flatMap exported⟩

/-- What the log says about a plan. -/
def planned (p : Plan) : LogLine :=
  ⟨.debug, s!"planned {p.files.length} files in {p.mode.name} mode"⟩

/-- The last declaration of each name. -/
def lastOfName (ds : List Declaration) : List Declaration :=
  ds.foldr (fun d kept => if kept.any (·.name == d.name) then kept else d :: kept) []

/-- Declarations sorted by name; of those that share a name the last one stays. -/
def ordered (ds : List Declaration) : List Declaration :=
  (lastOfName ds).mergeSort (·.name ≤ ·.name)

/-- The warnings about declarations whose name came up before. -/
def duplicateWarnings (seen : List String) : List Declaration → List LogLine
  | [] => []
  | d :: rest =>
    if seen.contains d.name then
      ⟨.warning, s!"duplicate DTO name '{d.name}'; the later definition wins"⟩ ::
        duplicateWarnings seen rest
    else duplicateWarnings (d.name :: seen) rest

/-- The plan for declarations in any order. -/
def ofDeclarations (r : Registry) (package : Option String) (ds : List Declaration) :
    Except RenderFailure Plan := do
  let views ← (ordered ds).mapM (Rendered.ofDeclaration r)
  match plan r package views with
  | .ok p => return p
  | .error e => throw (.blamed e)

end Layout
end SchemaCompiler
