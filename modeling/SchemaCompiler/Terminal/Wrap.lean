import SchemaCompiler.Terminal.Cells
import SchemaCompiler.Text.Blank

/-! Breaking lines that are too wide, at blanks as far as they have any. -/
namespace SchemaCompiler.Terminal

/-- What becomes of a word that is wider than a line: it goes on on the next line, or what is too
much of it gives way to dots. -/
inductive Overflow where
  | fold
  | dots
deriving DecidableEq

/-- A line with blanks up to the next column that is a multiple of eight in the place of each tab.
`part` is what stands before the next tab, last character first, from the column `column` on. -/
def expandTabs (column : Nat) (part : List Char) : List Char → List Char
  | [] => part.reverse
  | c :: rest =>
    if c == '\t' then
      let part := (' ' :: part).reverse
      let next := column + cells part
      let size := (8 - next % 8) % 8
      part ++ List.replicate size ' ' ++ expandTabs (next + size) [] rest
    else expandTabs column (c :: part) rest

/-- The words of a line, each with the blanks after it; blanks in front belong to the first. -/
def stretches (run : List Char) : List Char → List (List Char)
  | [] => if run.isEmpty then [] else [run.reverse]
  | c :: rest =>
    if !Text.isBlank c && run.head?.any Text.isBlank && run.any (!Text.isBlank ·) then
      run.reverse :: stretches [c] rest
    else stretches (c :: run) rest

/-- A word cut into pieces of at most `width` cells; `piece` is the one that is begun, and takes
`size` cells. -/
def pieces (width : Nat) (piece : List Char) (size : Nat) : List Cluster → List (List Char)
  | [] => [piece]
  | c :: rest =>
    if width < size + c.size then piece :: pieces width c.chars c.size rest
    else pieces width (piece ++ c.chars) (size + c.size) rest

/-- Fills lines with words, after a line that is begun and takes `used` cells. Blanks at the end of
a line need no room. -/
def fill (overflow : Overflow) (width : Nat) (line : List Char) (used : Nat) :
    List (List Char) → List (List Char)
  | [] => [line]
  | word :: rest =>
    let need := cells (Text.dropBlanksEnd word)
    let begun := if line.isEmpty then [] else [line]
    if used + need ≤ width then fill overflow width (line ++ word) (used + cells word) rest
    else if overflow == .fold && width < need then
      let parts := pieces width [] 0 (clusters word)
      let last := parts.getLastD []
      begun ++ parts.dropLast ++ fill overflow width last (cells last) rest
    else begun ++ fill overflow width word (cells word) rest

/-- A line without blanks at its end, as far as it has more than `width` characters. -/
def cutBlanks (width : Nat) (line : List Char) : List Char :=
  let blanks := line.length - (Text.dropBlanksEnd line).length
  line.take (line.length - min blanks (line.length - width))

/-- A line that takes at most `width` cells. -/
def fit (overflow : Overflow) (width : Nat) (line : List Char) : List Char :=
  if cells line ≤ width then line
  else
    match overflow with
    | .fold => crop width line
    | .dots => crop (width - 1) line ++ ['…']

/-- The lines into which a text is broken, before those that are still too wide are cut. -/
def broken (overflow : Overflow) (width : Nat) (s : String) : List (List Char) :=
  (s.toList.splitOn '\n').flatMap fun line =>
    (fill overflow width [] 0 (stretches [] (expandTabs 0 [] line))).map (cutBlanks width)

/-- The lines of a text in a space of some width. Without any room nothing is shown. -/
def wrap (overflow : Overflow) (width : Nat) (s : String) : List String :=
  if width == 0 then []
  else (broken overflow width s).map fun line => String.ofList (fit overflow width line)

theorem wrap_of_pos {width : Nat} (h : 0 < width) (overflow : Overflow) (s : String) :
    wrap overflow width s =
      (broken overflow width s).map fun line => String.ofList (fit overflow width line) := by
  have hpositive : (width == 0) = false := beq_false_of_ne (Nat.ne_of_gt h)
  rw [wrap, hpositive, if_neg Bool.false_ne_true]

/-- The width that a text asks for: that of its widest line. -/
def widthOf (s : String) : Nat :=
  ((Text.lines s).map fun line => cells line.toList).foldl max 0

end SchemaCompiler.Terminal
