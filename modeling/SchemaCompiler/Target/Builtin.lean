import SchemaCompiler.Target

/-! The targets that come with the library: io-ts and zod. -/
namespace SchemaCompiler.Target

/-- Functional combinators; validators are called codecs. -/
def ioTs : Target where
  name := "typescript"
  description := "TypeScript/io-ts"
  symbolSuffix := "Codec"
  baseImport := "import * as t from 'io-ts';"
  primitives := {
    string := "t.string"
    number := "t.number"
    integer := "t.number"
    boolean := "t.boolean"
    unknown := "t.unknown" }
  arrayPattern := "t.array(\x7belement\x7d)"
  enumPattern := "t.keyof(\x7b\x7b\x7bmembers\x7d\x7d\x7d)"
  memberPattern := "\x7bliteral\x7d: null"
  record := "t.record(t.string, t.unknown)"
  objectCall := "t.type"
  nullablePattern := "t.union([\x7bexpr\x7d, t.null])"
  optionalPattern := "t.union([\x7bexpr\x7d, t.undefined])"
  unknownFormatPattern := "\x7bexpr\x7d /* format: \x7bformat\x7d */"
  staticTypePattern := "t.TypeOf<typeof \x7bsymbol\x7d>"
  partialPattern := "t.partial(\x7bsymbol\x7d.props)"
  validatePattern := "\x7bsymbol\x7d.decode(data)"
  guardPattern := "\x7bsymbol\x7d.is(data)"
  bindings := .ofList [
    ("date-time", ⟨"DateFromISOString", "Date",
      "import \x7b DateFromISOString \x7d from 'io-ts-types';"⟩),
    ("uuid", ⟨"t.string", "string", ""⟩),
    ("email", ⟨"t.string", "string", ""⟩),
    ("uri", ⟨"t.string", "string", ""⟩),
    ("date", ⟨"t.string", "string", ""⟩)]
  exampleBindings := .ofList [
    ("date-time", ⟨"DateTimeString", "DateTimeString",
      "import \x7b DateTimeString \x7d from './branded-types';"⟩),
    ("uuid", ⟨"UUID.codec", "UUID", "import \x7b UUID \x7d from './branded-types';"⟩),
    ("email", ⟨"EmailString.codec", "EmailString",
      "import \x7b EmailString \x7d from './branded-types';"⟩)]
  dependencies := .ofList [
    ("fp-ts", "^2.16.0"), ("io-ts", "^2.2.20"), ("io-ts-types", "^0.5.19")]
  packageName := "generated-schemas"

/-- Fluent builders; validators are called schemas. -/
def zod : Target where
  name := "typescript-zod"
  description := "TypeScript/Zod"
  symbolSuffix := "Schema"
  baseImport := "import \x7b z \x7d from 'zod';"
  primitives := {
    string := "z.string()"
    number := "z.number()"
    integer := "z.number()"
    boolean := "z.boolean()"
    unknown := "z.unknown()" }
  arrayPattern := "z.array(\x7belement\x7d)"
  enumPattern := "z.enum([\x7bmembers\x7d])"
  memberPattern := "\x7bliteral\x7d"
  record := "z.record(z.unknown())"
  objectCall := "z.object"
  nullablePattern := "\x7bexpr\x7d.nullable()"
  optionalPattern := "\x7bexpr\x7d.optional()"
  unknownFormatPattern := "\x7bexpr\x7d /* format: \x7bformat\x7d */"
  staticTypePattern := "z.infer<typeof \x7bsymbol\x7d>"
  partialPattern := "\x7bsymbol\x7d.partial()"
  validatePattern := "\x7bsymbol\x7d.safeParse(data)"
  guardPattern := "\x7bsymbol\x7d.safeParse(data).success"
  bindings := .ofList [
    ("date-time", ⟨"z.string().datetime()", "string", ""⟩),
    ("uuid", ⟨"z.string().uuid()", "string", ""⟩),
    ("email", ⟨"z.string().email()", "string", ""⟩),
    ("uri", ⟨"z.string().url()", "string", ""⟩),
    ("url", ⟨"z.string().url()", "string", ""⟩),
    ("date", ⟨"z.string().date()", "string", ""⟩)]
  exampleBindings := .ofList [
    ("date-time", ⟨"DateTimeSchema", "DateTime",
      "import \x7b DateTimeSchema \x7d from './datetime-utils';"⟩),
    ("uuid", ⟨"z.string().uuid().brand('UUID')", "UUID", ""⟩),
    ("email", ⟨"EmailSchema", "Email", "import \x7b EmailSchema \x7d from './branded-types';"⟩)]
  dependencies := .ofList [("zod", "^3.22.4")]
  packageName := "generated-zod-schemas"

def all : List Target := [ioTs, zod]

/-- The target that is used when none is named. -/
def default : Target := ioTs

/-- The names of all targets, sorted. -/
def available : List String := (all.map (·.name)).mergeSort

def find? (name : String) : Option Target := all.find? (·.name == name)

/-- The message about a name of no target. -/
def unknownName (name : String) : String :=
  let names := ", ".intercalate available
  s!"no generator found for language: {name} (available: {names})"

end SchemaCompiler.Target
