/-! What a target puts in the place of a text with a format. -/
namespace SchemaCompiler

/-- A validator expression, the static type of the values that it accepts, and the import line that
it needs; an empty line stands for none. -/
structure Binding where
  validator : String
  staticType : String
  importLine : String
deriving DecidableEq

end SchemaCompiler
