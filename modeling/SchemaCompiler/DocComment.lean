import SchemaCompiler.Literal
import SchemaCompiler.Text.Blank

/-! The comment block above a definition. -/
namespace SchemaCompiler

/-- What a definition shows of one field. -/
structure FieldView where
  /-- The key in the object literal. -/
  key : String
  name : String
  expression : String
  staticType : String
  description : String
  required : Bool
deriving DecidableEq

namespace DocComment

/-- The line about a field. Names of fields that may be absent are in brackets. -/
def fieldLine (f : FieldView) : String :=
  let name := if f.required then f.name else s!"[{f.name}]"
  let tag := s!"@property \x7b{f.staticType}\x7d {name}"
  let summary := Literal.inComment (" ".intercalate (Text.words f.description))
  if summary == "" then tag else s!"{tag} - {summary}"

/-- The lines inside the block: the description, and after an empty line the fields. -/
def body (description : String) (fields : List FieldView) : List String :=
  let text := (Text.lines description).map Literal.inComment
  let gap := if fields.isEmpty || text.isEmpty then [] else [""]
  text ++ gap ++ fields.map fieldLine

/-- The lines of the block; there is none when there is nothing to say. -/
def lines (description : String) (fields : List FieldView) : List String :=
  let body := body description fields
  if body.isEmpty then []
  else "/**" :: body.map (fun line => Text.trimEnd s!" * {line}") ++ [" */"]

end DocComment
end SchemaCompiler
