import SchemaCompiler.Registry

/-!
Expressions for shapes: the validator of a target and the static type of the values that it
accepts. A field adds its modifiers to the expression of its shape, null first.
-/
namespace SchemaCompiler

open Text (PatternError fill)

namespace Registry

/-- The validator of a primitive. Only texts look at their format. -/
def primitive (r : Registry) (name format : String) : Except PatternError String :=
  let plain := r.target.primitives.validator name
  if name != "string" || format == "" then .ok plain
  else
    match r.get? format with
    | some b => .ok b.validator
    | none =>
      fill r.target.unknownFormatPattern
        [("expr", plain), ("format", Literal.inComment format)]

end Registry

/-- The validator of a shape. An object given in place is an untyped record. -/
def Shape.validator (r : Registry) : Shape → Except PatternError String
  | .primitive name format => r.primitive name format
  | .array element => do
    fill r.target.arrayPattern [("element", ← element.validator r)]
  | .reference target => .ok (r.target.symbol target)
  | .enum _ _ members => r.target.enumExpression members
  | .object (some target) _ =>
    .ok (if target == "" then r.target.record else r.target.symbol target)
  | .object none _ => .ok r.target.record

/-- The static types of the primitives. -/
def primitiveType (name : String) : String :=
  if name == "string" then "string"
  else if name == "number" || name == "integer" then "number"
  else if name == "boolean" then "boolean"
  else "unknown"

/-- The static type of a closed set of texts. -/
def memberUnion (members : List String) : String :=
  if members.isEmpty then "never" else " | ".intercalate (members.map Literal.quote)

/-- The static type of a shape. -/
def Shape.staticType (r : Registry) : Shape → String
  | .primitive name format =>
    match if name == "string" then r.get? format else none with
    | some b => b.staticType
    | none => primitiveType name
  | .array element => s!"Array<{element.staticType r}>"
  | .reference target => target
  | .enum _ _ members => memberUnion members
  | .object (some target) _ => if target == "" then "Record<string, unknown>" else target
  | .object none _ => "Record<string, unknown>"

/-- The validator of a field. -/
def Field.validator (r : Registry) (f : Field) : Except PatternError String := do
  let plain ← f.shape.validator r
  let nullable ← if f.nullable then fill r.target.nullablePattern [("expr", plain)] else .ok plain
  if f.required then return nullable else fill r.target.optionalPattern [("expr", nullable)]

/-- The static type of a field. That a field may be absent does not show in it. -/
def Field.staticType (r : Registry) (f : Field) : String :=
  if f.nullable then f.shape.staticType r ++ " | null" else f.shape.staticType r

end SchemaCompiler
