import SchemaCompiler.Terminal.Emoji

/-!
Texts with style tags in square brackets. `[name]` opens a style, `[/name]` closes the last one of
that name and `[/]` the last one of all. The styles themselves are not shown.

Two spellings of a style are taken to be the same when they differ in letter case and in blanks around
them only: no style has a short name, as `b` for `bold`, and its parts are in a fixed order. What stands
behind an equals sign plays no part, also when the name starts with `@`.
-/
namespace SchemaCompiler.Markup

/-- A closing tag that closes nothing. -/
structure StrayTag where
  name : String
deriving DecidableEq

/-- Whether a bracket with this character after it can be a tag. -/
def startsTag (c : Char) : Bool := ('a' ≤ c && c ≤ 'z') || c == '#' || c == '/' || c == '@'

/-- The tag at the start of what follows an opening bracket, and what follows the tag. -/
def tag? (cs : List Char) : Option (List Char × List Char) :=
  if cs.head?.any startsTag && cs.contains ']' then
    some (cs.takeWhile (· != ']'), (cs.dropWhile (· != ']')).drop 1)
  else none

/-- A text cut at its opening brackets: what is before the first one, and what follows each one. -/
def cuts : List Char → List Char × List (List Char)
  | [] => ([], [])
  | c :: rest =>
    let (first, others) := cuts rest
    if c == '[' then ([], first :: others) else (c :: first, others)

/-- The names of the open styles, the last one first, and the visible characters so far in pieces, the
last character first: the piece that is begun, and those before it. -/
structure Page where
  opened : List String
  piece : List Char
  pieces : List (List Char)

namespace Page

def empty : Page := ⟨[], [], []⟩

def put (p : Page) (cs : List Char) : Page := { p with piece := cs.reverse ++ p.piece }

/-- The next character starts a new piece. -/
def cut (p : Page) : Page := { p with piece := [], pieces := p.piece :: p.pieces }

/-- The name that two spellings of a style share. -/
def styleName (cs : List Char) : String :=
  Text.lower (Text.trim (String.ofList (cs.takeWhile (· != '='))))

/-- Opens or closes a style. -/
def apply (p : Page) (tag : List Char) : Except StrayTag Page :=
  match tag with
  | '/' :: name =>
    let name := styleName name
    if name == "" then
      match p.opened with
      | [] => .error ⟨name⟩
      | _ :: rest => .ok { p with opened := rest }
    else if p.opened.contains name then .ok { p with opened := p.opened.erase name }
    else .error ⟨name⟩
  | _ => .ok { p with opened := styleName tag :: p.opened }

/-- Reads the cuts of a text; `before` is what the next bracket follows. Backslashes before a tag
count in pairs as one visible backslash each, and a single one makes the tag visible. A backslash
before a bracket that opens no tag is dropped. A tag ends a piece, whether it is visible or not. -/
def read (p : Page) (before : List Char) : List (List Char) → Except StrayTag Page
  | [] => .ok (p.put before)
  | cs :: rest =>
    let escape := before.reverse.takeWhile (· == '\\')
    let stem := before.take (before.length - escape.length)
    match tag? cs with
    | none => (p.put (if escape.isEmpty then before else before.dropLast) |>.put ['[']).read cs rest
    | some (tag, after) =>
      let p := (p.put stem).cut.put (escape.take (escape.length / 2))
      if escape.length % 2 == 1 then (p.put (['['] ++ tag ++ [']'])).cut.read after rest
      else do (← p.apply tag).read after rest

/-- What is seen of a page. The name of a picture lies within a piece. -/
def shown (e : Emoji) (p : Page) : List Char :=
  (p.piece :: p.pieces).reverse.flatMap fun piece => e.draw piece.reverse

end Page

/-- The control characters that no terminal shows: bell, backspace, the two wide feeds and the
carriage return. -/
def isDropped (c : Char) : Bool :=
  c == '\x07' || c == '\x08' || c == '\x0b' || c == '\x0c' || c == '\x0d'

/-- A text without the characters that are not shown. -/
def plain (s : String) : String := String.ofList (s.toList.filter (!isDropped ·))

/-- Reads a whole text. -/
def page (s : String) : Except StrayTag Page :=
  let (first, others) := cuts s.toList
  Page.empty.read first others

/-- What is seen of a marked text. -/
def visible (e : Emoji) (s : String) : Except StrayTag String := do
  return plain (String.ofList ((← page s).shown e))

end SchemaCompiler.Markup
