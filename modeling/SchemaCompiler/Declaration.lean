/-!
Declarations: the named objects and enums that schemas turn into, with the shapes of their fields.
A reference keeps the name of its target and is never expanded. Fields are sorted by name.
-/
namespace SchemaCompiler

/-- What becomes of a declaration: a set of fields, or a closed set of texts. -/
inductive Kind where
  | object
  | enum
deriving DecidableEq

mutual

/-- What values of a field look like. -/
inductive Shape where
  | primitive (name : String) (format : String)
  | array (element : Shape)
  | reference (target : String)
  | enum (name : String) (underlying : String) (members : List String)
  /-- A nested object: the declaration named `target`, or the fields given in place. -/
  | object (target : Option String) (nested : Option Declaration)

/-- A property of an object declaration. -/
structure Field where
  name : String
  shape : Shape
  description : String
  nullable : Bool
  required : Bool

/-- A named unit of generated code. -/
structure Declaration where
  name : String
  kind : Kind
  description : String
  fields : List Field
  /-- The names that the schema requires, sorted, each once. -/
  required : List String
  members : List String

end

/-- Sorts texts by code point and drops repetitions. -/
def sortNames (names : List String) : List String := names.mergeSort.eraseDups

def sortFields (fields : List Field) : List Field := fields.mergeSort (·.name ≤ ·.name)

namespace Declaration

/-- A declaration with its fields and required names in order. -/
def ordered (d : Declaration) : Declaration :=
  { d with fields := sortFields d.fields, required := sortNames d.required }

def object (name description : String) (fields : List Field) (required : List String) :
    Declaration :=
  ordered ⟨name, .object, description, fields, required, []⟩

def enum (name description : String) (members : List String) : Declaration :=
  ⟨name, .enum, description, [], [], members⟩

def isEnum (d : Declaration) : Bool := d.kind == .enum

/-- The first field with a name. -/
def field? (d : Declaration) (name : String) : Option Field := d.fields.find? (·.name == name)

end Declaration

namespace Shape

/-- The shapes that have validators of their own. -/
def scalarNames : List String := ["string", "number", "integer", "boolean"]

/-- The name of a primitive that is not described any further. -/
def unknownName : String := "unknown"

def unknown : Shape := .primitive unknownName ""

instance : Inhabited Shape := ⟨unknown⟩

/-- The name to show for a shape. -/
def typeName : Shape → String
  | .primitive name _ => name
  | .array element => s!"Array<{element.typeName}>"
  | .reference target => target
  | .enum name _ _ => name
  | .object target nested =>
    match target.filter (· != ""), nested with
    | some target, _ => target
    | none, some d => d.name
    | none, none => "object"

/-- The formats of texts in a shape; objects in place are not entered. -/
def formats : Shape → List String
  | .primitive name format => if name == "string" && format != "" then [format] else []
  | .array element => element.formats
  | _ => []

/-- The names of declarations that a shape refers to; objects in place are not entered. -/
def references : Shape → List String
  | .reference target => [target]
  | .array element => element.references
  | .object (some target) _ => if target == "" then [] else [target]
  | _ => []

end Shape

namespace Declaration

/-- The formats that rendering a declaration looks up, sorted. -/
def usedFormats (d : Declaration) : List String := sortNames (d.fields.flatMap (·.shape.formats))

/-- The other declarations that rendering a declaration refers to, sorted. -/
def referencedNames (d : Declaration) : List String :=
  sortNames ((d.fields.flatMap (·.shape.references)).filter (· != d.name))

end Declaration

end SchemaCompiler
