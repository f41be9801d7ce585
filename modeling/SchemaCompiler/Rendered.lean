import SchemaCompiler.DocComment
import SchemaCompiler.Expression
import SchemaCompiler.Naming

/-! A declaration with all the texts that its definition is put together from. -/
namespace SchemaCompiler

/-- Texts that do not apply are empty. -/
structure Rendered where
  name : String
  /-- The name of the module, without extension. -/
  moduleName : String
  /-- The name of the validator. -/
  symbol : String
  description : String := ""
  doc : List String := []
  isEnum : Bool := false
  fields : List FieldView := []
  enumExpression : String := ""
  staticType : String := ""
  partialSymbol : String := ""
  partialExpression : String := ""
  partialStaticType : String := ""
  validateExpression : String := ""
  guardExpression : String := ""
  formats : List String := []
  references : List String := []
deriving DecidableEq

def Rendered.hasPartial (v : Rendered) : Bool := v.partialSymbol != ""

def Rendered.hasHelpers (v : Rendered) : Bool := v.validateExpression != ""

/-- What keeps a declaration from being rendered. -/
inductive RenderCause where
  | pattern (e : Text.PatternError)
  | reservedModule (name : String)
  | sharedModule (name owner : String)

def RenderCause.message : RenderCause → String
  | .pattern e => e.message
  | .reservedModule name => s!"module '{name}' is reserved for the index file"
  | .sharedModule name owner => s!"module '{name}' is already produced by DTO '{owner}'"

/-- The declaration, and the field if one is to blame. -/
structure RenderError where
  declaration : String
  field : Option String
  cause : RenderCause

def RenderError.message (e : RenderError) : String :=
  let place := match e.field with
    | none => e.declaration
    | some field => s!"{e.declaration}.{field}"
  s!"failed to render {place}: {e.cause.message}"

/-- Why rendering stopped. An error about the kind of a value names no declaration. -/
inductive RenderFailure where
  | blamed (e : RenderError)
  | unblamed (e : Text.PatternError)

def RenderFailure.message : RenderFailure → String
  | .blamed e => e.message
  | .unblamed e => e.message

namespace Rendered

/-- Names the declaration, and the field, that a pattern failed for. -/
def blame (declaration : String) (field : Option String) (result : Except Text.PatternError α) :
    Except RenderFailure α :=
  match result with
  | .ok a => .ok a
  | .error e =>
    .error (if e.isAboutKind then .unblamed e else .blamed ⟨declaration, field, .pattern e⟩)

def fieldView (r : Registry) (f : Field) : Except Text.PatternError FieldView :=
  return ⟨Literal.key f.name, f.name, ← f.validator r, f.staticType r, f.description, f.required⟩

/-- Fills a pattern for a symbol if it is wanted. -/
def symbolText (wanted : Bool) (pattern symbol : String) : Except Text.PatternError String :=
  if wanted then Text.fill pattern [("symbol", symbol)] else .ok ""

/-- The texts of a declaration whose fields are rendered. -/
def ofFields (r : Registry) (d : Declaration) (fields : List FieldView) :
    Except Text.PatternError Rendered := do
  let t := r.target
  let symbol := t.symbol d.name
  let hasPartial := r.generation.partials && !d.isEnum
  let partialSymbol := if hasPartial then t.partialSymbol d.name else ""
  let enumExpression ← if d.isEnum then t.enumExpression d.members else .ok ""
  let staticType ← symbolText true t.staticTypePattern symbol
  let partialExpression ← symbolText hasPartial t.partialPattern symbol
  let partialStaticType ← symbolText hasPartial t.staticTypePattern partialSymbol
  let validateExpression ← symbolText r.generation.helpers t.validatePattern symbol
  let guardExpression ← symbolText r.generation.helpers t.guardPattern symbol
  return {
    name := d.name
    moduleName := Naming.kebab d.name
    symbol
    description := d.description
    doc := DocComment.lines d.description fields
    isEnum := d.isEnum
    fields
    enumExpression
    staticType
    partialSymbol
    partialExpression
    partialStaticType
    validateExpression
    guardExpression
    formats := d.usedFormats
    references := d.referencedNames }

/-- The texts of a declaration. The first field that cannot be rendered is to blame. -/
def ofDeclaration (r : Registry) (d : Declaration) : Except RenderFailure Rendered := do
  let fields ← d.fields.mapM fun f => blame d.name (some f.name) (fieldView r f)
  blame d.name none (ofFields r d fields)

end Rendered
end SchemaCompiler
