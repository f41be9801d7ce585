import SchemaCompiler.Text.Quoted

/-! JSON strings in plain ASCII: a character beyond it is written as its UTF-16 units. -/
namespace SchemaCompiler.Text

def unitEscape (unit : Nat) : List Char := '\\' :: 'u' :: hex 4 unit

/-- The escapes of the UTF-16 units of a code point. -/
def utf16Escape (n : Nat) : List Char :=
  if n < 0x10000 then unitEscape n
  else
    let m := n - 0x10000
    unitEscape (0xd800 + m / 0x400) ++ unitEscape (0xdc00 + m % 0x400)

def jsonEscape (c : Char) : List Char :=
  if c == '\x22' || c == '\\' then ['\\', c]
  else if c == '\n' then ['\\', 'n']
  else if c == '\r' then ['\\', 'r']
  else if c == '\t' then ['\\', 't']
  else if c == '\x0c' then ['\\', 'f']
  else if c == '\x08' then ['\\', 'b']
  else if 0x20 ≤ c.toNat && c.toNat < 0x7f then [c]
  else utf16Escape c.toNat

def jsonString (s : String) : String :=
  String.ofList ('\x22' :: s.toList.flatMap jsonEscape ++ ['\x22'])

end SchemaCompiler.Text
