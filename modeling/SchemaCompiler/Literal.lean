/-! Pieces of source text for names and texts: string literals, object keys and comment texts. -/
namespace SchemaCompiler.Literal

def escape (c : Char) : List Char :=
  if c == '\\' then ['\\', '\\']
  else if c == '\x27' then ['\\', '\x27']
  else if c == '\n' then ['\\', 'n']
  else [c]

/-- A single-quoted string literal. -/
def quote (s : String) : String :=
  String.ofList ('\x27' :: s.toList.flatMap escape ++ ['\x27'])

def startsIdentifier (c : Char) : Bool := c.isAlpha || c == '_' || c == '$'

def continuesIdentifier (c : Char) : Bool := startsIdentifier c || c.isDigit

/-- An identifier, which one line feed may follow. -/
def isIdentifier (cs : List Char) : Bool :=
  let name := if cs.getLast? == some '\n' then cs.dropLast else cs
  match name with
  | [] => false
  | c :: rest => startsIdentifier c && rest.all continuesIdentifier

/-- A key of an object literal: an identifier as it is, any other name as a string literal. -/
def key (name : String) : String := if isIdentifier name.toList then name else quote name

/-- Characters with a backslash inside each end mark of a block comment. -/
def breakCommentEnds : List Char → List Char
  | '*' :: '/' :: rest => '*' :: '\\' :: '/' :: breakCommentEnds rest
  | c :: rest => c :: breakCommentEnds rest
  | [] => []

/-- A text that can stand in a block comment. -/
def inComment (s : String) : String := String.ofList (breakCommentEnds s.toList)

end SchemaCompiler.Literal
