import SchemaCompiler.Text.Blank
import SchemaCompiler.Text.Case

/-! Pictures that a text calls by their names, each between two colons. -/
namespace SchemaCompiler

/-- The pictures that have a name. -/
structure Emoji where
  /-- The picture of a name in small letters. -/
  picture? : String → Option String
  /-- No picture brings a colon into a text. -/
  bare : ∀ name picture, picture? name = some picture → ':' ∉ picture.toList

namespace Emoji

/-- No picture has a name. -/
def none : Emoji where
  picture? _ := .none
  bare _ _ h := absurd h.symm (Option.some_ne_none _)

/-- A name without what its end says about the picture: shown in colors or as a plain sign. With it
comes the mark that says so. -/
def variant (name : List Char) : List Char × List Char :=
  if "-emoji".toList.isSuffixOf name then (name.take (name.length - 6), ['\ufe0f'])
  else if "-text".toList.isSuffixOf name then (name.take (name.length - 5), ['\ufe0e'])
  else (name, [])

/-- What is shown of a name between two colons. -/
def shown (e : Emoji) (name : List Char) : List Char :=
  let (stem, mark) := variant name
  match e.picture? (Text.lower (String.ofList stem)) with
  | some picture => picture.toList ++ mark
  | .none => ':' :: name ++ [':']

/-- What is shown of a text. After a colon `name` is what has been read since, the last character
first; a blank ends it. -/
def drawFrom (e : Emoji) : (name : Option (List Char)) → List Char → List Char
  | .none, [] => []
  | some name, [] => ':' :: name.reverse
  | .none, c :: rest => if c == ':' then e.drawFrom (some []) rest else c :: e.drawFrom .none rest
  | some name, c :: rest =>
    if c == ':' then e.shown name.reverse ++ e.drawFrom .none rest
    else if Text.isBlank c then ':' :: name.reverse ++ c :: e.drawFrom .none rest
    else e.drawFrom (some (c :: name)) rest

/-- A text with pictures in the place of their names. -/
def draw (e : Emoji) (cs : List Char) : List Char := e.drawFrom .none cs

end Emoji
end SchemaCompiler
