import SchemaCompiler.Rendered
import SchemaCompiler.Text.JsonString

/-! The text of every kind of file that is generated, line by line. -/
namespace SchemaCompiler.SourceText

/-- Lines as a text, each with its line end. -/
def unlines (lines : List String) : String := String.join (lines.map (· ++ "\n"))

/-- The validator of a declaration. -/
def validatorLines (t : Target) (v : Rendered) : List String :=
  if v.isEnum then [s!"export const {v.symbol} = {v.enumExpression};"]
  else [s!"export const {v.symbol} = {t.objectCall}(\x7b"] ++
    v.fields.map (fun f => s!"  {f.key}: {f.expression},") ++ ["\x7d);"]

def partialLines (v : Rendered) : List String :=
  if v.hasPartial then
    ["", s!"export const {v.partialSymbol} = {v.partialExpression};",
      "", s!"export type {v.name}Partial = {v.partialStaticType};"]
  else []

def helperLines (v : Rendered) : List String :=
  if v.hasHelpers then
    ["", s!"export const validate{v.name} = (data: unknown) => {v.validateExpression};",
      "", s!"export const is{v.name} = (data: unknown): data is {v.name} => {v.guardExpression};"]
  else []

/-- The definition of a declaration: its comment, validator, static type and what goes with them. -/
def definition (t : Target) (v : Rendered) : List String :=
  v.doc ++ validatorLines t v ++ ["", s!"export type {v.name} = {v.staticType};"] ++
    partialLines v ++ helperLines v

def header : String := "// Generated by dto-forge. Do not edit by hand."

def schemaHeader (name : String) : String :=
  s!"// Generated by dto-forge from schema '{name}'. Do not edit by hand."

/-- The import of a declaration of another module. -/
def siblingImport (v : Rendered) : String :=
  s!"import \x7b {v.symbol} \x7d from './{v.moduleName}';"

/-- A module with one declaration. -/
def moduleText (t : Target) (imports siblings : List String) (v : Rendered) : String :=
  unlines (schemaHeader v.name :: imports ++ siblings ++ "" :: definition t v)

/-- One file with all declarations. -/
def singleText (t : Target) (imports : List String) (vs : List Rendered) : String :=
  unlines (header :: imports ++ vs.flatMap fun v => "" :: definition t v)

/-- The module that exports all others. -/
def indexText (moduleNames : List String) : String :=
  unlines (header :: moduleNames.map fun m => s!"export * from './{m}';")

/-- A JSON object of texts inside another object. -/
def jsonTexts (pairs : List (String × String)) : String :=
  if pairs.isEmpty then "\x7b\x7d"
  else
    let entry (name value : String) : String :=
      s!"    {Text.jsonString name}: {Text.jsonString value}"
    "\x7b\n" ++ ",\n".intercalate (pairs.map fun (n, v) => entry n v) ++ "\n  \x7d"

/-- The package manifest. -/
def manifestText (t : Target) (packageName entryPoint : String) : String :=
  let text (name value : String) : String := s!"  \"{name}\": {Text.jsonString value}"
  let fields := [
    text "name" packageName,
    text "version" "1.0.0",
    text "description" s!"Generated {t.description} schemas",
    text "main" entryPoint,
    text "types" entryPoint,
    "  \"dependencies\": " ++ jsonTexts t.dependencies.sorted,
    "  \"devDependencies\": " ++ jsonTexts [("typescript", "^5.0.0")]]
  "\x7b\n" ++ ",\n".intercalate fields ++ "\n\x7d\n"

/-- The key under which an example config gives validators. -/
def validatorKey (t : Target) : String :=
  if t.name == "typescript-zod" then "zodType" else "ioTsType"

def exampleBinding (key : String) (format : String) (b : Binding) : List String :=
  let importLines :=
    if b.importLine == "" then [] else [s!"    import: {Text.jsonString b.importLine}"]
  [s!"  {format}:",
    s!"    {key}: {Text.jsonString b.validator}",
    s!"    typeScriptType: {Text.jsonString b.staticType}"] ++ importLines ++ [""]

/-- A config file for a target with every setting at its default and a comment on each. -/
def exampleConfig (t : Target) : String :=
  let key := validatorKey t
  let output : OutputSettings := {}
  let generation : GenerationSettings := {}
  unlines <| [
    s!"# dto-forge configuration for {t.description}",
    "# Top-level sections apply to every language. A section keyed by the",
    s!"# language name (\"{t.name}\") overrides them for that language only.",
    "",
    "# Output configuration",
    "output:",
    "  # Default output folder (the --out option takes precedence)",
    s!"  folder: {Text.jsonString output.folder}",
    "",
    "  # Output mode: \"multiple\" (one file per DTO) or \"single\" (all in one file)",
    s!"  mode: {Text.jsonString output.mode.name}",
    "",
    "  # File name used in single file mode",
    s!"  singleFileName: {Text.jsonString output.singleFile}",
    "",
    "# Name written to the generated package.json",
    s!"packageName: {Text.jsonString t.packageName}",
    "",
    "# Custom type mappings for OpenAPI formats.",
    s!"# {key}: validator expression inserted verbatim",
    "# typeScriptType: static type of the validated value",
    "# import: import statement the expression needs (optional)",
    "customTypes:"] ++
    t.exampleBindings.sorted.flatMap (fun (format, b) => exampleBinding key format b) ++ [
    "# Generation options",
    "generation:",
    "  # Write package.json when the output folder has none",
    s!"  generatePackageJson: {generation.manifest}",
    "",
    "  # Generate validate/is-type helper functions for each DTO",
    s!"  generateHelpers: {generation.helpers}",
    "",
    "  # Generate partial variants of object schemas for updates",
    s!"  generatePartialCodecs: {generation.partials}"]

end SchemaCompiler.SourceText
