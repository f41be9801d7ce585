import SchemaCompiler.Value.Shown

/-!
Diagnostics about schemas. A `Finding` is a cause with the facts that its message needs; a
`Diagnostic` is its printed form with the place where it was met.
-/
namespace SchemaCompiler

inductive Severity where
  | error
  | warning
  | info
deriving DecidableEq

def Severity.label : Severity → String
  | .error => "ERROR"
  | .warning => "WARNING"
  | .info => "INFO"

structure Diagnostic where
  code : String
  message : String
  severity : Severity
  /-- The dotted path of the node. -/
  path : Option String
  suggestion : Option String
  /-- The name that a dangling reference points at. -/
  reference : Option String
deriving DecidableEq

/-- One line with all that is known. An empty suggestion is not shown. -/
def Diagnostic.text (d : Diagnostic) : String :=
  let place := match d.path with
    | some path => [s!"at {path}"]
    | none => []
  let hint := match d.suggestion with
    | some hint => if hint == "" then [] else [s!"(hint: {hint})"]
    | none => []
  " ".intercalate ([s!"[{d.code}]", d.severity.label, d.message] ++ place ++ hint)

/-- What can be wrong with schemas and with the declarations made from them. -/
inductive Finding where
  | schemaNotMapping (name kindName : String)
  | propertiesNotMapping (owner kindName : String)
  | propertyNotMapping (name kindName : String)
  | requiredNotList (kindName : String)
  | requiredNotName (shown : String)
  | itemsNotMapping
  | invalidReference (shown : String)
  | memberNotText (shown : String)
  | enumNotList (kindName : String)
  | unsupportedSchema (name shown : String)
  | unrecognizedType (shown : String)
  | danglingReference (target : String) (similar : Option String)
  | emptyEnum (name : String)
  | repeatedMember (name member : String)
  | undeclaredRequired (owner name : String)
deriving DecidableEq

namespace Finding

def code : Finding → String
  | .schemaNotMapping .. => "S001"
  | .propertiesNotMapping .. => "S002"
  | .propertyNotMapping .. => "S003"
  | .requiredNotList .. | .requiredNotName .. => "S004"
  | .itemsNotMapping => "S005"
  | .invalidReference .. => "S006"
  | .memberNotText .. => "S007"
  | .enumNotList .. => "S008"
  | .unsupportedSchema .. => "S009"
  | .unrecognizedType .. => "S010"
  | .danglingReference .. => "W101"
  | .emptyEnum .. => "W102"
  | .repeatedMember .. => "W103"
  | .undeclaredRequired .. => "W104"

/-- Only a schema that is no mapping is an error: no declaration comes out of it. -/
def severity : Finding → Severity
  | .schemaNotMapping .. => .error
  | _ => .warning

def message : Finding → String
  | .schemaNotMapping name kind => s!"Schema '{name}' is a {kind}, not a mapping; skipped"
  | .propertiesNotMapping owner kind =>
    s!"'properties' of '{owner}' is a {kind}, not a mapping; all properties dropped"
  | .propertyNotMapping name kind =>
    s!"Property '{name}' is a {kind}, not a schema mapping; dropped"
  | .requiredNotList kind => s!"'required' must be a list of names, got {kind}; ignored"
  | .requiredNotName shown => s!"Required entry {shown} is not a property name; ignored"
  | .itemsNotMapping =>
    "Array 'items' is missing or not a schema mapping; elements unvalidated"
  | .invalidReference shown => s!"$ref must be a non-empty string, got {shown}"
  | .memberNotText shown => s!"Enum member {shown} is not a string; dropped"
  | .enumNotList kind => s!"'enum' must be a list, got {kind}; no members generated"
  | .unsupportedSchema name shown =>
    s!"Schema '{name}' has type {shown}; only objects and enums become DTOs, " ++
    "generating an empty object"
  | .unrecognizedType shown => s!"Unrecognized schema type {shown}; rendered as unvalidated"
  | .danglingReference target _ => s!"Reference to undefined schema '{target}'"
  | .emptyEnum name => s!"Enum '{name}' has no members; no value will validate"
  | .repeatedMember name member => s!"Enum '{name}' lists '{member}' more than once"
  | .undeclaredRequired owner name => s!"'{name}' is required by '{owner}' but not declared"

def suggestion : Finding → Option String
  | .memberNotText .. => some "Only string enums can be rendered as literal sets"
  | .unsupportedSchema .. =>
    some "Wrap the value in an object schema or use $ref from a property"
  | .danglingReference _ (some similar) => some s!"Did you mean '{similar}'?"
  | .danglingReference _ none =>
    some "Define the schema under components.schemas or fix the $ref"
  | .repeatedMember .. => some "Remove the duplicate member"
  | .undeclaredRequired .. => some "Add the property or remove it from 'required'"
  | _ => none

def reference : Finding → Option String
  | .danglingReference target _ => some target
  | _ => none

/-- The diagnostic of a finding at a path. -/
def atPath (f : Finding) (path : String) : Diagnostic :=
  ⟨f.code, f.message, f.severity, some path, f.suggestion, f.reference⟩

end Finding

/-- The path of the mapping that holds all schemas. -/
def schemasPath : String := "components.schemas"

def schemaPath (name : String) : String := s!"{schemasPath}.{name}"

/-- Diagnostics in the order in which they were made. -/
structure Report where
  diagnostics : List Diagnostic

namespace Report

def errors (r : Report) : List Diagnostic := r.diagnostics.filter (·.severity == .error)

def warnings (r : Report) : List Diagnostic := r.diagnostics.filter (·.severity == .warning)

def isValid (r : Report) : Bool := r.errors.isEmpty

def append (r s : Report) : Report := ⟨r.diagnostics ++ s.diagnostics⟩

instance : Append Report := ⟨append⟩

/-- Errors block generation, and in strict mode warnings do. -/
def blocks (strict : Bool) (r : Report) : Bool :=
  !r.isValid || (strict && !r.warnings.isEmpty)

/-- The message of a report that blocks generation. -/
def failure (r : Report) : String :=
  let count (n : Nat) (noun : String) : List String := if n == 0 then [] else [s!"{n} {noun}(s)"]
  let parts := count r.errors.length "error" ++ count r.warnings.length "warning"
  "Validation failed: " ++ ", ".intercalate parts

/-- All errors and then all warnings, one a line. -/
def listing (r : Report) : String :=
  "\n".intercalate (r.errors.map (fun d => s!"ERROR: {d.text}") ++
    r.warnings.map (fun d => s!"WARNING: {d.text}"))

end Report

end SchemaCompiler
