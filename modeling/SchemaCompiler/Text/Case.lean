import SchemaCompiler.Text.CaseTable

/-!
Letter case for whole texts. Upper case may lengthen a text (`ß` gives `SS`), and a capital sigma
at the end of a word has a lower case form of its own.
-/
namespace SchemaCompiler.Text

private def inRanges (ranges : Array (Nat × Nat)) (c : Char) : Bool :=
  ranges.any fun (first, last) => first ≤ c.toNat && c.toNat ≤ last

/-- The letter that a table maps `c` to, `c` itself when no range covers it. -/
def shiftCase (ranges : Array CaseRange) (c : Char) : Char :=
  match ranges.find? (·.covers c.toNat) with
  | some r => Char.ofNat (c.toNat + r.shift).toNat
  | none => c

def upperChar (c : Char) : List Char :=
  match upperExpansions.find? (·.1 == c.toNat) with
  | some (_, codes) => codes.map Char.ofNat
  | none => [shiftCase upperRanges c]

def upper (s : String) : String :=
  String.ofList (s.toList.flatMap upperChar)

/-- Whether a case rule that looks away from a letter meets a cased one. `side` starts with the
nearest character. -/
def meetsCased (side : List Char) : Bool :=
  match side.dropWhile (inRanges caseIgnorableRanges) with
  | [] => false
  | c :: _ => inRanges casedRanges c

/-- Lower case of the text `rest` that follows the characters `before`, nearest first. -/
def lowerAfter (before : List Char) : List Char → List Char
  | [] => []
  | c :: rest =>
    let low :=
      if c == 'Σ' then
        if meetsCased before && !meetsCased rest then ['ς'] else ['σ']
      else if c == 'İ' then ['i', '\u0307']
      else [shiftCase lowerRanges c]
    low ++ lowerAfter (c :: before) rest

def lower (s : String) : String :=
  String.ofList (lowerAfter [] s.toList)

end SchemaCompiler.Text
