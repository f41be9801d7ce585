import SchemaCompiler.Binding
import SchemaCompiler.Config.Decoded

/-!
The configuration document: settings for every target, and sections for single targets that are
layered on top of them. All settings are optional.
-/
namespace SchemaCompiler

/-- How generated code is laid out in files. -/
inductive Mode where
  | multiple
  | single
deriving DecidableEq

def Mode.name : Mode → String
  | .multiple => "multiple"
  | .single => "single"

namespace Config

structure Output where
  folder : Option String
  mode : Option Mode
  singleFile : Option String

structure Generation where
  manifest : Option Bool
  helpers : Option Bool
  partials : Option Bool

structure Section where
  output : Option Output
  generation : Option Generation
  bindings : Table Binding
  packageName : Option String

structure Document where
  general : Section
  typescript : Option Section
  typescriptZod : Option Section

/-- The sections that apply to a target, in the order in which they are applied. -/
def Document.sections (d : Document) (target : String) : List Section :=
  let own := if target == "typescript" then d.typescript
    else if target == "typescript-zod" then d.typescriptZod
    else none
  d.general :: own.toList

def mode : Decoder Mode := fun _ v =>
  match v with
  | .scalar (.str "multiple") => .value .multiple
  | .scalar (.str "single") => .value .single
  | _ => .fail (.notOneOf "'multiple' or 'single'")

namespace Spelling

def validator := ["validator", "ioTsType", "zodType"]
def staticType := ["typescript_type", "typeScriptType"]
def importLine := ["import_statement", "import"]
def folder := ["folder"]
def mode := ["mode"]
def singleFile := ["singleFileName", "single_file_name"]
def manifest := ["generatePackageJson", "generate_package_json"]
def helpers := ["generateHelpers", "generate_helpers"]
def partials := ["generatePartialCodecs", "generate_partial_codecs"]
def output := ["output"]
def generation := ["generation"]
def bindings := ["customTypes", "custom_types"]
def packageName := ["packageName", "package_name"]
def typescript := ["typescript"]
def typescriptZod := ["typescript-zod", "typescript_zod"]

end Spelling

def binding : Decoder Binding :=
  record [Spelling.validator, Spelling.staticType, Spelling.importLine] fun h es =>
    Binding.mk <$> requiredField nonEmptyText h es Spelling.validator
      <*> optionalField text "string" h es Spelling.staticType
      <*> optionalField text "" h es Spelling.importLine

def output : Decoder Output :=
  record [Spelling.folder, Spelling.mode, Spelling.singleFile] fun h es =>
    Output.mk <$> optionalField (orNull nonEmptyText) none h es Spelling.folder
      <*> optionalField (orNull mode) none h es Spelling.mode
      <*> optionalField (orNull nonEmptyText) none h es Spelling.singleFile

def generation : Decoder Generation :=
  record [Spelling.manifest, Spelling.helpers, Spelling.partials] fun h es =>
    Generation.mk <$> optionalField (orNull truth) none h es Spelling.manifest
      <*> optionalField (orNull truth) none h es Spelling.helpers
      <*> optionalField (orNull truth) none h es Spelling.partials

/-- The spellings of the fields of a section. -/
def sectionFields : List (List String) :=
  [Spelling.output, Spelling.generation, Spelling.bindings, Spelling.packageName]

def sectionOf (h : Heap) (es : Entries) : Decoded Section :=
  Section.mk <$> optionalField (orNull output) none h es Spelling.output
    <*> optionalField (orNull generation) none h es Spelling.generation
    <*> optionalField (table binding) .empty h es Spelling.bindings
    <*> optionalField (orNull nonEmptyText) none h es Spelling.packageName

def targetSection : Decoder Section := record sectionFields sectionOf

def document : Decoder Document :=
  record (sectionFields ++ [Spelling.typescript, Spelling.typescriptZod]) fun h es =>
    Document.mk <$> sectionOf h es
      <*> optionalField (orNull targetSection) none h es Spelling.typescript
      <*> optionalField (orNull targetSection) none h es Spelling.typescriptZod

/-- Reads a configuration document. Nothing at all is a document without settings. -/
def Document.ofRaw (h : Heap) (v : Value) : Except (List Problem) Document :=
  match v with
  | .scalar .null => .ok ⟨⟨none, none, .empty, none⟩, none, none⟩
  | v => (document h v).toExcept

/-- The message that stands above a list of problems. -/
def invalid (problems : List Problem) : String :=
  s!"Invalid configuration ({problems.length} problem(s))"

end Config
end SchemaCompiler
