import SchemaCompiler.Text.Alignment
import SchemaCompiler.Text.Referent

/-!
Text patterns with named places in braces. A pattern is read into pieces and, when its braces do
not match, a fault after them; filling goes from left to right and stops at the first piece that
cannot be filled or at the fault.
-/
namespace SchemaCompiler.Text

/-- Why a pattern could not be read. -/
inductive PatternFault where
  | loneOpen
  | loneClose
  | unclosed
  | openInName
  | noConversion
  | afterConversion
  | unclosedWidth

def PatternFault.message : PatternFault → String
  | .loneOpen => "Single '\x7b' encountered in format string"
  | .loneClose => "Single '\x7d' encountered in format string"
  | .unclosed => "expected '\x7d' before end of string"
  | .openInName => "unexpected '\x7b' in field name"
  | .noConversion => "end of string while looking for conversion specifier"
  | .afterConversion => "expected ':' after conversion specifier"
  | .unclosedWidth => "unmatched '\x7b' in format spec"

inductive PatternError where
  | fault (f : PatternFault)
  | unknownName (name : String)
  | position (index : Nat)
  | tooNested
  | emptyAccessor
  | openBracket
  | afterBracket
  | unknownConversion (c : Char)
  /-- A text has no character, or a row no entry, with this number. -/
  | outOfRange (container : String)
  /-- The entries of a text or of a row are not known by names. -/
  | notNumbered (message : String)
  | noEntries (title : String)
  /-- A table has no entry of this name or with this number. -/
  | noEntry (key : String)
  | noMember (title name : String)
  | noWidth (kindName : String)
  | alignment (e : AlignmentError)

def PatternError.message : PatternError → String
  | .fault f => f.message
  | .unknownName name => quoted name
  | .position index => s!"Replacement index {index} out of range for positional args tuple"
  | .tooNested => "Max string recursion exceeded"
  | .emptyAccessor => "Empty attribute in format string"
  | .openBracket => "Missing ']' in format string"
  | .afterBracket => "Only '.' or '[' may follow ']' in format field specifier"
  | .unknownConversion c =>
    if 32 < c.toNat && c.toNat < 127 then s!"Unknown conversion specifier {c}"
    else "Unknown conversion specifier \\x" ++ String.ofList (Nat.toDigits 16 c.toNat)
  | .outOfRange container => s!"{container} index out of range"
  | .notNumbered message => message
  | .noEntries title => s!"{title} is not subscriptable"
  | .noEntry key => key
  | .noMember title name => s!"{title} has no attribute '{name}'"
  | .noWidth kindName => s!"unsupported format string passed to {kindName}.__format__"
  | .alignment e => e.message

/-- Whether an error is about the kind of a value, which has no such member or entries. -/
def PatternError.isAboutKind : PatternError → Bool
  | .notNumbered _ | .noEntries _ | .noMember .. | .noWidth _ => true
  | _ => false

/-- The name of a place, what is done with its value, and the width part. -/
structure Place where
  name : String
  conversion : Option Char
  width : String
  nested : Bool

inductive Piece where
  | literal (c : Char)
  | place (p : Place)

structure Pattern where
  pieces : List Piece
  fault : Option PatternFault

/-- Where the reader of a pattern stands. Texts are held last character first. -/
inductive PatternState where
  | text
  | name (read : List Char)
  | bracket (read : List Char)
  | conversion (name : List Char)
  | converted (name : List Char) (c : Char)
  | width (name : List Char) (c : Option Char) (read : List Char) (depth : Nat) (nested : Bool)

def Pattern.cons (piece : Piece) (p : Pattern) : Pattern := ⟨piece :: p.pieces, p.fault⟩

private def placeOf (name : List Char) (conversion : Option Char) (width : List Char)
    (nested : Bool) : Piece :=
  .place ⟨String.ofList name.reverse, conversion, String.ofList width.reverse, nested⟩

def Pattern.read : PatternState → List Char → Pattern
  | .text, [] => ⟨[], none⟩
  | .text, '\x7b' :: '\x7b' :: rest => .cons (.literal '\x7b') (read .text rest)
  | .text, '\x7d' :: '\x7d' :: rest => .cons (.literal '\x7d') (read .text rest)
  | .text, ['\x7b'] => ⟨[], some .loneOpen⟩
  | .text, c :: rest =>
    if c == '\x7d' then ⟨[], some .loneClose⟩
    else if c == '\x7b' then read (.name []) rest
    else .cons (.literal c) (read .text rest)
  | .name _, [] => ⟨[], some .unclosed⟩
  | .name read', c :: rest =>
    if c == '\x7b' then ⟨[], some .openInName⟩
    else if c == '\x7d' then .cons (placeOf read' none [] false) (read .text rest)
    else if c == ':' then read (.width read' none [] 0 false) rest
    else if c == '!' then read (.conversion read') rest
    else if c == '[' then read (.bracket (c :: read')) rest
    else read (.name (c :: read')) rest
  | .bracket _, [] => ⟨[], some .unclosed⟩
  | .bracket read', c :: rest =>
    if c == ']' then read (.name (c :: read')) rest else read (.bracket (c :: read')) rest
  | .conversion _, [] => ⟨[], some .noConversion⟩
  | .conversion name, c :: rest => read (.converted name c) rest
  | .converted _ _, [] => ⟨[], some .unclosedWidth⟩
  | .converted name conv, c :: rest =>
    if c == '\x7d' then .cons (placeOf name (some conv) [] false) (read .text rest)
    else if c == ':' then read (.width name (some conv) [] 0 false) rest
    else ⟨[], some .afterConversion⟩
  | .width _ _ _ _ _, [] => ⟨[], some .unclosedWidth⟩
  | .width name conv read' depth nested, c :: rest =>
    if c == '\x7b' then read (.width name conv (c :: read') (depth + 1) true) rest
    else if c == '\x7d' then
      match depth with
      | 0 => .cons (placeOf name conv read' nested) (read .text rest)
      | depth + 1 => read (.width name conv (c :: read') depth nested) rest
    else read (.width name conv (c :: read') depth nested) rest

def Pattern.parse (s : String) : Pattern := Pattern.read .text s.toList

/-- The number that digits write, if there are no other characters. -/
private def numberOf? (cs : List Char) : Except PatternError (Option Nat) :=
  if !cs.all isDecimal then .ok none
  else
    match leadingNumber cs with
    | .ok (n, _) => .ok n
    | .error e => .error (.alignment e)

/-- The entry of a text, a row or a table with a number. -/
private def numbered (r : Referent) (n : Nat) : Except PatternError Referent :=
  match r with
  | .text s =>
    match s.toList[n]? with
    | some c => .ok (.text c.toString)
    | none => .error (.outOfRange "string")
  | .row kinds =>
    match kinds[n]? with
    | some k => .ok (.kind k)
    | none => .error (.outOfRange "tuple")
  | .table _ => .error (.noEntry (toString n))
  | r => noEntries r
where
  noEntries : Referent → Except PatternError Referent
    | .kind k => .error (.noEntries s!"type '{k.name}'")
    | r => .error (.noEntries r.title)

/-- The entry that is written between brackets. -/
private def entry (r : Referent) (index : List Char) : Except PatternError Referent := do
  match ← numberOf? index, r with
  | some n, r => numbered r n
  | none, .text _ => throw (.notNumbered "string indices must be integers, not 'str'")
  | none, .row _ => throw (.notNumbered "tuple indices must be integers or slices, not str")
  | none, .table k =>
    match Referent.entry? k (String.ofList index) with
    | some r => return r
    | none => throw (.noEntry (quoted (String.ofList index)))
  | none, r => numbered.noEntries r

/-- What follows the name of a place: `.member` and `[index]` steps; there are no more steps
than characters. -/
private def applySteps : Nat → List Char → Referent → Except PatternError Referent
  | _, [], r => .ok r
  | 0, _, r => .ok r
  | room + 1, '.' :: rest, r =>
    let member := rest.takeWhile fun c => c != '.' && c != '['
    if member.isEmpty then .error .emptyAccessor
    else
      match r.member? (String.ofList member) with
      | some r => applySteps room (rest.drop member.length) r
      | none => .error (.noMember r.title (String.ofList member))
  | room + 1, '[' :: rest, r => do
    let index := rest.takeWhile (· != ']')
    match rest.drop index.length with
    | [] => throw .openBracket
    | _ :: rest =>
      if index.isEmpty then throw .emptyAccessor
      applySteps room rest (← entry r index)
  | _, _ :: _, _ => .error .afterBracket

/-- What a place refers to. -/
def Place.referent (values : List (String × String)) (p : Place) :
    Except PatternError Referent := do
  let cs := p.name.toList
  let first := cs.takeWhile fun c => c != '.' && c != '['
  let steps := cs.drop first.length
  if first.isEmpty then throw (.position 0)
  match ← numberOf? first with
  | some n => throw (.position n)
  | none =>
    match values.lookup (String.ofList first) with
    | none => throw (.unknownName (String.ofList first))
    | some value => applySteps steps.length steps (.text value)

/-- A text in plain ASCII. -/
private def inAscii (s : String) : String :=
  String.ofList (s.toList.flatMap fun c => if c.toNat < 0x80 then [c] else codeEscape c)

/-- The conversion of a referent to a text, if one is asked for. -/
def convert (r : Referent) : Option Char → Except PatternError Referent
  | none => .ok r
  | some 's' => .ok (.text r.shown)
  | some 'r' => .ok (.text r.quotedForm)
  | some 'a' => .ok (.text (inAscii r.quotedForm))
  | some c => .error (.unknownConversion c)

/-- A referent in the width that a place asks for. Only texts have a width here: numbers would have one,
too, in styles of their own. -/
def aligned (width : String) : Referent → Except PatternError String
  | .text s =>
    match Alignment.parse? width with
    | .ok a => .ok (a.apply s)
    | .error e => .error (.alignment e)
  | r => if width == "" then .ok r.shown else .error (.noWidth r.kindOf.name)

/-- Fills a pattern. Places may stand inside the width part of a place, down to `depth` levels. -/
def fillTo (values : List (String × String)) : (depth : Nat) → String → Except PatternError String
  | 0, _ => .error .tooNested
  | depth + 1, s => do
    let pattern := Pattern.parse s
    let texts ← pattern.pieces.mapM fun
      | .literal c => pure c.toString
      | .place p => do
        let r ← convert (← p.referent values) p.conversion
        let width ← if p.nested then fillTo values depth p.width else pure p.width
        aligned width r
    match pattern.fault with
    | some f => throw (.fault f)
    | none => return String.join texts

/-- Fills the places of a pattern with values by name. -/
def fill (pattern : String) (values : List (String × String)) : Except PatternError String :=
  fillTo values 2 pattern

end SchemaCompiler.Text
