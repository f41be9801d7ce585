import SchemaCompiler.Binding
import SchemaCompiler.Literal
import SchemaCompiler.Table
import SchemaCompiler.Text.Pattern

/-!
A target is the lexicon of one validation library. Everything that depends on the library is looked
up here; its patterns have named places, which the doc comments of the fields list.
-/
namespace SchemaCompiler

/-- The validators of the primitive shapes. Every target has these five; `others` are carried along
unused. -/
structure Primitives where
  string : String
  number : String
  integer : String
  boolean : String
  unknown : String
  others : List (String × String) := []

namespace Primitives

def names : List String := ["string", "number", "integer", "boolean", "unknown"]

/-- The primitives that pairs of names and validators give, or the names that are missing. -/
def ofPairs? (pairs : List (String × String)) : Except (List String) Primitives :=
  match pairs.lookup "string", pairs.lookup "number", pairs.lookup "integer",
    pairs.lookup "boolean", pairs.lookup "unknown" with
  | some string, some number, some integer, some boolean, some unknown =>
    .ok ⟨string, number, integer, boolean, unknown, pairs.filter (!names.contains ·.1)⟩
  | _, _, _, _, _ => .error (names.filter fun name => (pairs.lookup name).isNone)

def toPairs (p : Primitives) : List (String × String) :=
  [("string", p.string), ("number", p.number), ("integer", p.integer), ("boolean", p.boolean),
    ("unknown", p.unknown)] ++ p.others

/-- The validator of a primitive by its name; a name of no scalar gives the unknown one. -/
def validator (p : Primitives) (name : String) : String :=
  if name == "string" then p.string
  else if name == "number" then p.number
  else if name == "integer" then p.integer
  else if name == "boolean" then p.boolean
  else p.unknown

end Primitives

structure Target where
  /-- The name on the command line and in config files. -/
  name : String
  description : String
  /-- What a declaration's name is followed by in the name of its validator. -/
  symbolSuffix : String
  /-- The import of the library, which comes before all others. -/
  baseImport : String
  primitives : Primitives
  /-- Place: `element`. -/
  arrayPattern : String
  /-- Place: `members`. -/
  enumPattern : String
  /-- Place: `literal`. -/
  memberPattern : String
  /-- The validator of objects that are given in place. -/
  record : String
  /-- The call around the fields of an object. -/
  objectCall : String
  /-- Place: `expr`. -/
  nullablePattern : String
  /-- Place: `expr`. -/
  optionalPattern : String
  /-- Places: `expr` and `format`. -/
  unknownFormatPattern : String
  /-- Place: `symbol`. -/
  staticTypePattern : String
  /-- Place: `symbol`. -/
  partialPattern : String
  /-- Place: `symbol`; the value to check is called `data`. -/
  validatePattern : String
  /-- Place: `symbol`; the value to check is called `data`. -/
  guardPattern : String
  /-- The bindings of formats that are built in. -/
  bindings : Table Binding
  /-- The bindings that an example config shows. -/
  exampleBindings : Table Binding
  /-- What a package manifest depends on at run time, with versions. -/
  dependencies : Table String
  packageName : String
  fileExtension : String := ".ts"

namespace Target

/-- The error of a target whose primitives lack some names. -/
def missingPrimitives (target : String) (names : List String) : String :=
  s!"dialect '{target}' lacks primitives: " ++ ", ".intercalate names

/-- The name of the validator of a declaration. -/
def symbol (t : Target) (name : String) : String := name ++ t.symbolSuffix

/-- The name of the validator of the partial variant of a declaration. -/
def partialSymbol (t : Target) (name : String) : String := name ++ "Partial" ++ t.symbolSuffix

/-- The validator of a closed set of texts. -/
def enumExpression (t : Target) (members : List String) : Except Text.PatternError String := do
  let literals ← members.mapM fun m => Text.fill t.memberPattern [("literal", Literal.quote m)]
  Text.fill t.enumPattern [("members", ", ".intercalate literals)]

end Target
end SchemaCompiler
