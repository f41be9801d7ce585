/-! Blank characters, and the three ways of cutting a text at them: trimming, words and lines. -/
namespace SchemaCompiler.Text

/-- Spaces, tabs, line ends, the four separators below the space, and the wider spaces of Unicode.
Zero width characters are not blank. -/
def isBlank (c : Char) : Bool :=
  let n := c.toNat
  (9 ≤ n && n ≤ 13) || (0x1c ≤ n && n ≤ 0x20) || n == 0x85 || n == 0xa0 || n == 0x1680 ||
  (0x2000 ≤ n && n ≤ 0x200a) || n == 0x2028 || n == 0x2029 || n == 0x202f || n == 0x205f ||
  n == 0x3000

def dropBlanks (cs : List Char) : List Char := cs.dropWhile isBlank

def dropBlanksEnd (cs : List Char) : List Char := (dropBlanks cs.reverse).reverse

/-- The text without blanks at its end. -/
def trimEnd (s : String) : String := String.ofList (dropBlanksEnd s.toList)

/-- The text without blanks at either end. -/
def trim (s : String) : String := String.ofList (dropBlanksEnd (dropBlanks s.toList))

/-- The maximal runs of characters that `isBlank` refuses; `run` holds the current one, last
character first. -/
def wordsFrom (run : List Char) : List Char → List String
  | [] => if run.isEmpty then [] else [String.ofList run.reverse]
  | c :: rest =>
    if isBlank c then
      if run.isEmpty then wordsFrom [] rest
      else String.ofList run.reverse :: wordsFrom [] rest
    else wordsFrom (c :: run) rest

def words (s : String) : List String := wordsFrom [] s.toList

/-- The characters that end a line. -/
def endsLine (c : Char) : Bool :=
  let n := c.toNat
  (10 ≤ n && n ≤ 13) || (0x1c ≤ n && n ≤ 0x1e) || n == 0x85 || n == 0x2028 || n == 0x2029

/-- The lines of a text. A carriage return with a line feed ends one line, and no empty line
follows a final line end. -/
def linesFrom (run : List Char) : List Char → List String
  | [] => if run.isEmpty then [] else [String.ofList run.reverse]
  | '\r' :: '\n' :: rest => String.ofList run.reverse :: linesFrom [] rest
  | c :: rest =>
    if endsLine c then String.ofList run.reverse :: linesFrom [] rest
    else linesFrom (c :: run) rest

def lines (s : String) : List String := linesFrom [] s.toList

end SchemaCompiler.Text
