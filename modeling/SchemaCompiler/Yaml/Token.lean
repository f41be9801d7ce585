import SchemaCompiler.Calendar
import SchemaCompiler.Text.Quoted

/-! Tokens of the document language, and what can be wrong with a document. -/
namespace SchemaCompiler.Yaml

/-- A scalar that looks like a value of some kind, or is marked as one, and is none. -/
inductive Fault where
  | calendar (e : CalendarError)
  | timestamp
  /-- A timestamp whose text is an entry of a mapping. -/
  | timestampMapping
  /-- A mapping whose text is an entry of a mapping, and so on without end. -/
  | endlessText
  | int (base : Nat) (text : String)
  | intTooLong (digits : Nat)
  | intTooLarge
  | float (text : String)
  | bool (text : String)
  | emptyNumber
  | codePoint
  | codePointSize

def Fault.message : Fault → String
  | .calendar e => e.message
  | .timestamp => "'NoneType' object has no attribute 'groupdict'"
  | .timestampMapping => "expected string or bytes-like object, got 'list'"
  | .endlessText => "maximum recursion depth exceeded"
  | .int base text =>
    s!"invalid literal for int() with base {base}: " ++
    String.ofList ((Text.quoted text).toList.take 200)
  | .intTooLong digits =>
    "Exceeds the limit (4300 digits) for integer string conversion: value has " ++
    s!"{digits} digits; use sys.set_int_max_str_digits() to increase the limit"
  | .intTooLarge => "int too large to convert to float"
  | .float text => "could not convert string to float: " ++ Text.quoted text
  | .bool text => Text.quoted text
  | .emptyNumber => "string index out of range"
  | .codePoint => "chr() arg not in range(0x110000)"
  | .codePointSize => "Python int too large to convert to C int"

inductive Error where
  | malformed
  | fault (f : Fault)

/-- A tag as written: a handle, if there is one, and what follows it. -/
structure TagText where
  handle : Option String
  suffix : String

inductive Token where
  | version (major : Nat)
  | tagHandle (handle target : String)
  | unknownDirective
  | documentStart
  | documentEnd
  | blockSequenceStart
  | blockMappingStart
  | blockEnd
  | flowSequenceStart
  | flowSequenceEnd
  | flowMappingStart
  | flowMappingEnd
  | blockEntry
  | flowEntry
  | key
  | value
  | alias (name : String)
  | anchor (name : String)
  | tag (t : TagText)
  | scalar (text : String) (plain : Bool)
  /-- The text cannot be cut into tokens from here on. -/
  | broken (e : Error)

end SchemaCompiler.Yaml
