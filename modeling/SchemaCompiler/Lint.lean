import SchemaCompiler.Declaration
import SchemaCompiler.Diagnostic
import SchemaCompiler.Text.Case

/-!
Semantic checks on a batch of declarations: references that name no declaration, enums without or
with repeated members, and required names that no field has. Objects given in place are checked
like declarations of their own.
-/
namespace SchemaCompiler

/-- A shape and the elements of the arrays in it, with their paths. -/
def Shape.layers (path : String) : Shape → List (Shape × String)
  | .array element => (.array element, path) :: element.layers s!"{path}.items"
  | shape => [(shape, path)]

def Field.path (owner : String) (f : Field) : String := s!"{owner}.properties.{f.name}"

mutual

/-- A declaration and the objects given in place below it, with their paths. -/
def Declaration.objects (path : String) : Declaration → List (Declaration × String)
  | ⟨name, kind, description, fields, required, members⟩ =>
    (⟨name, kind, description, fields, required, members⟩, path) :: objectsOfFields path fields

def objectsOfFields (owner : String) : List Field → List (Declaration × String)
  | [] => []
  | ⟨name, shape, _, _, _⟩ :: rest =>
    shape.objects s!"{owner}.properties.{name}" ++ objectsOfFields owner rest

/-- The objects given in place in a shape. -/
def Shape.objects (path : String) : Shape → List (Declaration × String)
  | .array element => element.objects s!"{path}.items"
  | .object _ (some d) => d.objects path
  | _ => []

end

namespace Lint

/-- The shapes in a declaration, object by object, with their paths. -/
def shapes (d : Declaration) : List (Shape × String) :=
  (d.objects (schemaPath d.name)).flatMap fun (owner, path) =>
    owner.fields.flatMap fun f => f.shape.layers (f.path path)

/-- The name that a shape refers to. -/
def target? : Shape → Option String
  | .reference target => some target
  | .object (some target) _ => if target == "" then none else some target
  | _ => none

/-- The first of the sorted names that differs from `target` in letter case only. -/
def similar? (names : List String) (target : String) : Option String :=
  names.find? fun name => Text.lower name == Text.lower target

/-- References that name no declaration of the batch. -/
def references (ds : List Declaration) : List Diagnostic :=
  let names := sortNames (ds.map (·.name))
  (ds.flatMap shapes).filterMap fun (shape, path) =>
    match target? shape with
    | none => none
    | some target =>
      if names.contains target then none
      else some ((Finding.danglingReference target (similar? names target)).atPath path)

/-- The members that repeat an earlier one, in order. -/
def repeated (seen : List String) : List String → List String
  | [] => []
  | m :: rest =>
    if seen.contains m then m :: repeated seen rest else repeated (m :: seen) rest

/-- The findings about the members of one enum. -/
def enumFindings (name : String) (members : List String) : List Finding :=
  if members.isEmpty then [.emptyEnum name]
  else (repeated [] members).map (.repeatedMember name)

/-- Enums without members or with repeated ones. -/
def enums (ds : List Declaration) : List Diagnostic :=
  ds.flatMap fun d =>
    if d.isEnum then (enumFindings d.name d.members).map (·.atPath (schemaPath d.name))
    else (shapes d).flatMap fun (shape, path) =>
      match shape with
      | .enum name _ members => (enumFindings name members).map (·.atPath path)
      | _ => []

/-- Required names that are no fields of the object that requires them. -/
def required (ds : List Declaration) : List Diagnostic :=
  ds.flatMap fun d =>
    if d.isEnum then []
    else (d.objects (schemaPath d.name)).flatMap fun (owner, path) =>
      let declared := owner.fields.map (·.name)
      (owner.required.filter (!declared.contains ·)).map fun name =>
        (Finding.undeclaredRequired owner.name name).atPath s!"{path}.required"

end Lint

/-- One of the checks. -/
inductive Check where
  | references
  | enums
  | required

def Check.run : Check → List Declaration → List Diagnostic
  | .references => Lint.references
  | .enums => Lint.enums
  | .required => Lint.required

/-- All checks, in the order in which they report. -/
def Check.all : List Check := [.references, .enums, .required]

/-- The report of some checks. -/
def lint (checks : List Check) (ds : List Declaration) : Report :=
  ⟨checks.flatMap (·.run ds)⟩

end SchemaCompiler
