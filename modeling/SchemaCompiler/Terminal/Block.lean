import SchemaCompiler.Terminal.Markup
import SchemaCompiler.Terminal.Wrap

/-!
What a program prints, block by block: paragraphs, panels and grids. A block is printed as a whole
or, when its markup is wrong, not at all.
-/
namespace SchemaCompiler

/-- Where blocks are shown: how many cells a line has, and the pictures that have a name there. -/
structure Console where
  width : Nat
  emoji : Emoji

inductive Content where
  | plain (s : String)
  | markup (s : String)
deriving DecidableEq

def Content.text (e : Emoji) : Content → Except Markup.StrayTag String
  | .plain s => .ok (Markup.plain s)
  | .markup s => Markup.visible e s

structure Column where
  heading : String
  /-- How many cells wide, unless as wide as needed. -/
  width : Option Nat := none
deriving DecidableEq

/-- A grid of marked texts. -/
structure Grid where
  title : String
  columns : List Column
  headed : Bool
  rows : List (List String)
deriving DecidableEq

inductive Block where
  | paragraph (c : Content)
  | panel (title : String) (c : Content)
  | grid (g : Grid)
deriving DecidableEq

namespace Grid

/-- The blanks around the content of a cell. -/
def padding : Nat := 2

/-- The width that a column asks for, given its contents. It is never more than all of `limit`. -/
def asked (limit : Nat) (c : Column) (contents : List String) : Nat :=
  min limit (padding + c.width.getD ((contents.map Terminal.widthOf).foldl max 0))

/-- One of equal shares as a whole number; a half goes to the even neighbour. -/
def share (amount sharers : Nat) : Nat :=
  let whole := amount / sharers
  let twice := 2 * (amount % sharers)
  if twice > sharers || (twice == sharers && whole % 2 == 1) then whole + 1 else whole

/-- Takes `excess` away from widths in equal shares, but from each at most what stands beside it. A width
of which nothing may be taken has no share. -/
def reduce (excess : Nat) : List (Nat × Nat) → List Nat
  | [] => []
  | (width, most) :: rest =>
    if most == 0 then width :: reduce excess rest
    else
      let taken := min most (share excess (1 + rest.countP (·.2 != 0)))
      (width - taken) :: reduce (excess - taken) rest

def total (widths : List Nat) : Nat := widths.foldl (· + ·) 0

def widest (widths : List Nat) : Nat := widths.foldl max 0

/-- Makes the widest columns of those whose width may change narrower, but no narrower than the next
ones. -/
def narrow (excess : Nat) (columns : List (Nat × Bool)) : List (Nat × Bool) :=
  let free := (columns.filter (·.2)).map (·.1)
  let most := min excess (widest free - widest (free.filter (· != widest free)))
  let widths := reduce excess (columns.map fun (width, isFree) =>
    (width, if isFree && width == widest free then most else 0))
  widths.zip (columns.map (·.2))

/-- Makes columns narrower until all have room together. Each round makes one more column as wide as the
widest ones, so there is `room` for as many rounds as columns. -/
def shrink (limit : Nat) : (room : Nat) → List (Nat × Bool) → List (Nat × Bool)
  | 0, columns => columns
  | room + 1, columns =>
    let excess := total (columns.map (·.1)) - limit
    if excess == 0 then columns else shrink limit room (narrow excess columns)

/-- The cells of a line that the frame of a grid takes. -/
def frame (g : Grid) : Nat := if g.headed then g.columns.length + 1 else 0

/-- The widths that the columns ask for with their padding, and whether they may change. -/
def asking (limit : Nat) (g : Grid) (rows : List (List String)) : List (Nat × Bool) :=
  g.columns.zipIdx.map fun (c, i) =>
    (asked limit c (rows.map fun row => row.getD i ""), c.width.isNone)

/-- The widths of all columns with their padding, for rows of cells. Where the columns of given widths
have no room by themselves, all columns become narrower. -/
def outerWidths (c : Console) (g : Grid) (rows : List (List String)) : List Nat :=
  let limit := c.width - g.frame
  let widths := (shrink limit (g.columns.length + 1) (g.asking limit rows)).map (·.1)
  reduce (total widths - limit) (widths.map fun width => (width, width))

/-- The widths of the contents of all columns, for rows of cells. -/
def widths (c : Console) (g : Grid) (rows : List (List String)) : List Nat :=
  (g.outerWidths c rows).map (· - padding)

/-- The lines of a row, with its cells side by side: as many as its highest cell has. -/
def beside (cells : List (List String)) : List String :=
  (List.range (cells.foldl (fun n cell => max n cell.length) 0)).map fun i =>
    "  ".intercalate (cells.map fun cell => cell.getD i "")

/-- The rows of cells, the headings first. -/
def seenRows (e : Emoji) (g : Grid) : Except Markup.StrayTag (List (List String)) :=
  let heading := if g.headed then [g.columns.map (·.heading)] else []
  (heading ++ g.rows).mapM (·.mapM (Markup.visible e))

/-- The lines of a row in columns of some widths. -/
def rowLines (widths : List Nat) (row : List String) : List String :=
  beside (List.zipWith (Terminal.wrap .dots) widths row)

/-- The lines of a grid, its title above its rows, on a console with room for its frame. -/
def lines (c : Console) (g : Grid) : Except Markup.StrayTag (List String) := do
  let title ← Markup.visible c.emoji g.title
  let rows ← g.seenRows c.emoji
  return Terminal.wrap .fold (total (g.outerWidths c rows) + g.frame) title ++
    rows.flatMap (rowLines (g.widths c rows))

end Grid

/-- The lines that a block puts on a console. A panel has a frame and blanks on both sides, and its title
stands in the frame. -/
def Block.lines (c : Console) : Block → Except Markup.StrayTag (List String)
  | .paragraph content => return Terminal.wrap .fold c.width (← content.text c.emoji)
  | .panel title content =>
    return String.ofList (Terminal.fit .fold (c.width - 4) (' ' :: title.toList ++ [' '])) ::
      Terminal.wrap .fold (c.width - 4) (← content.text c.emoji)
  | .grid g => g.lines c

end SchemaCompiler
