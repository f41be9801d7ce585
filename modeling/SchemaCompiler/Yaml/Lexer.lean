import SchemaCompiler.Decimal.Read
import SchemaCompiler.Text.Surrogate
import SchemaCompiler.Yaml.Token

/-!
Cutting a document into tokens. Blocks are recognised by their columns, and a key without a mark of
its own is recognised by the colon after it: the place of every token that could start such a key
is remembered until the colon comes or can no longer come.
-/
namespace SchemaCompiler.Yaml

/-- A token that a colon would turn into a key. -/
structure PossibleKey where
  token : Nat
  required : Bool
  index : Nat
  line : Nat
  column : Nat

structure Lexer where
  rest : List Char
  /-- The number of characters of the whole text: no loop goes on for longer. -/
  size : Nat
  index : Nat := 0
  line : Nat := 0
  column : Nat := 0
  tokens : Array Token := #[]
  /-- The number of open brackets and braces. -/
  flow : Nat := 0
  indent : Int := -1
  indents : List Int := []
  keyAllowed : Bool := true
  /-- The possible key of each flow level. -/
  possible : List (Nat × PossibleKey) := []

abbrev Lex (α : Type) := StateT Lexer (Except Error) α

/-- Stands for the end of the text, which holds no such character. -/
def endMark : Char := '\x00'

def isBreak (c : Char) : Bool :=
  c == '\n' || c == '\x85' || c == '\u2028' || c == '\u2029'

def isBreakOrEnd (c : Char) : Bool := isBreak c || c == endMark

def isSpaceOrEnd (c : Char) : Bool := isBreakOrEnd c || c == ' '

def isBlankOrEnd (c : Char) : Bool := isSpaceOrEnd c || c == '\t'

def isNameChar (c : Char) : Bool := c.isAlphanum || c == '-' || c == '_'

namespace Lexer

def peekAt (l : Lexer) (n : Nat) : Char := l.rest[n]?.getD endMark

/-- The lexer after one more character. A byte order mark has no width. -/
def step (l : Lexer) : Lexer :=
  match l.rest with
  | [] => l
  | c :: rest =>
    if isBreak c then { l with rest, index := l.index + 1, line := l.line + 1, column := 0 }
    else if c == '\ufeff' then { l with rest, index := l.index + 1 }
    else { l with rest, index := l.index + 1, column := l.column + 1 }

def skip (l : Lexer) : Nat → Lexer
  | 0 => l
  | n + 1 => l.step.skip n

end Lexer

namespace Lex

def malformed : Lex α := throw .malformed

def peek (n : Nat) : Lex Char := return (← get).peekAt n

def advance (n : Nat) : Lex Unit := modify (·.skip n)

/-- Takes the characters that `accepts` holds for. -/
def takeWhile (accepts : Char → Bool) : Lex (List Char) := do
  let cs := (← get).rest.takeWhile accepts
  advance cs.length
  return cs

def skipSpaces : Lex Unit := discard (takeWhile (· == ' '))

/-- Takes a line break, if there is one. -/
def lineBreak : Lex (List Char) := do
  let c ← peek 0
  if isBreak c then
    advance 1
    return [if c == '\x85' then '\n' else c]
  else return []

def emit (t : Token) : Lex Unit := modify fun l => { l with tokens := l.tokens.push t }

def allowKey (allowed : Bool) : Lex Unit := modify fun l => { l with keyAllowed := allowed }

/-- Ends the blocks that are indented by more than `column`. -/
def unwindList (column : Int) (indent : Int) : List Int → Nat × Int × List Int
  | [] => (0, indent, [])
  | outer :: indents =>
    if column < indent then
      let (n, i, is) := unwindList column outer indents
      (n + 1, i, is)
    else (0, indent, outer :: indents)

def unwind (column : Int) : Lex Unit :=
  modify fun l =>
    if l.flow != 0 then l
    else
      let (n, indent, indents) := unwindList column l.indent l.indents
      { l with indent, indents, tokens := l.tokens ++ Array.replicate n Token.blockEnd }

/-- Starts a block at a column, if none is open there. -/
def openBlock (column : Nat) : Lex Bool := do
  let l ← get
  if l.indent < column then
    set { l with indent := column, indents := l.indent :: l.indents }
    return true
  else return false

def possibleHere (l : Lexer) : Option PossibleKey := l.possible.lookup l.flow

def dropPossible (l : Lexer) : Lexer :=
  { l with possible := l.possible.filter (·.1 != l.flow) }

/-- Gives up the possible key of this level. A key that the block needs cannot be given up. -/
def forgetKey : Lex Unit := do
  let l ← get
  match possibleHere l with
  | some k => if k.required then malformed else set (dropPossible l)
  | none => pure ()

/-- Whether the colon of a possible key can no longer come: it must be on its line and near. -/
def isStale (l : Lexer) (k : PossibleKey) : Bool := k.line != l.line || l.index - k.index > 1024

/-- Gives up the keys whose colon can no longer come. -/
def forgetStaleKeys : Lex Unit := do
  let l ← get
  if l.possible.any fun (_, k) => isStale l k && k.required then malformed
  set { l with possible := l.possible.filter fun (_, k) => !isStale l k }

/-- Remembers that the next token may be a key. -/
def rememberKey : Lex Unit := do
  if (← get).keyAllowed then
    forgetKey
    modify fun l =>
      let required := l.flow == 0 && l.indent == l.column
      let k : PossibleKey := ⟨l.tokens.size, required, l.index, l.line, l.column⟩
      { l with possible := (l.flow, k) :: l.possible }

/-- Skips to the start of a token over spaces, comments and line ends, one line per round. -/
def skipToToken : (room : Nat) → Lex Unit
  | 0 => pure ()
  | room + 1 => do
    let l ← get
    if l.index == 0 && l.peekAt 0 == '\ufeff' then advance 1
    skipSpaces
    if (← peek 0) == '#' then discard (takeWhile (!isBreakOrEnd ·))
    if (← lineBreak).isEmpty then pure ()
    else
      if (← get).flow == 0 then allowKey true
      skipToToken room

/-- The rest of a line that has to hold nothing but a comment. -/
def ignoredLine : Lex Unit := do
  skipSpaces
  if (← peek 0) == '#' then discard (takeWhile (!isBreakOrEnd ·))
  if isBreakOrEnd (← peek 0) then discard lineBreak else malformed

private def hexValue (cs : List Char) : Option Nat := Decimal.digitsIn 16 cs

/-- Takes `n` hexadecimal digits. -/
def hexDigits (n : Nat) : Lex Nat := do
  let cs := (← get).rest.take n
  if cs.length != n || cs.contains '_' then malformed
  match hexValue cs with
  | some code =>
    advance n
    return code
  | none => malformed

/-- The bytes of a run of percent escapes. -/
def percentBytes : (room : Nat) → Lex (List UInt8)
  | 0 => return []
  | room + 1 => do
    if (← peek 0) == '%' then
      advance 1
      let code ← hexDigits 2
      return UInt8.ofNat code :: (← percentBytes room)
    else return []

private def isTagChar (c : Char) : Bool :=
  c.isAlphanum || "-;/?:@&=+$,_.!~*\x27()[]".toList.contains c

/-- The text of a tag, with percent escapes read as UTF-8. -/
def tagCharacters : (room : Nat) → Lex (List Char)
  | 0 => return []
  | room + 1 => do
    let cs ← takeWhile isTagChar
    if (← peek 0) == '%' then
      let bytes ← percentBytes (← get).size
      match String.fromUTF8? ⟨bytes.toArray⟩ with
      | some s => return cs ++ s.toList ++ (← tagCharacters room)
      | none => malformed
    else return cs

def tagSuffix : Lex String := do
  let cs ← tagCharacters ((← get).size + 1)
  if cs.isEmpty then malformed
  return String.ofList cs

/-- A tag handle: `!`, `!!` or `!name!`. -/
def tagHandle : Lex String := do
  if (← peek 0) != '!' then malformed
  let l ← get
  if l.peekAt 1 == ' ' then
    advance 1
    return "!"
  else
    let name := (l.rest.drop 1).takeWhile isNameChar
    if l.peekAt (name.length + 1) != '!' then malformed
    advance (name.length + 2)
    return String.ofList ('!' :: name ++ ['!'])

def tag : Lex TagText := do
  let l ← get
  let c := l.peekAt 1
  let t ←
    if c == '<' then
      advance 2
      let suffix ← tagSuffix
      if (← peek 0) != '>' then malformed
      advance 1
      pure ⟨none, suffix⟩
    else if isBlankOrEnd c then
      advance 1
      pure ⟨none, "!"⟩
    else if ((l.rest.drop 1).takeWhile (!isSpaceOrEnd ·)).contains '!' then
      let handle ← tagHandle
      pure ⟨some handle, ← tagSuffix⟩
    else
      advance 1
      pure ⟨some "!", ← tagSuffix⟩
  if isSpaceOrEnd (← peek 0) then return t else malformed

/-- The name of an anchor or alias. -/
def anchorName : Lex String := do
  advance 1
  let cs ← takeWhile isNameChar
  if cs.isEmpty then malformed
  let c ← peek 0
  if isBlankOrEnd c || "?:,]\x7d%@\x60".toList.contains c then return String.ofList cs
  else malformed

def number : Lex Nat := do
  let cs ← takeWhile Char.isDigit
  if cs.length > Decimal.mostDigits then throw (.fault (.intTooLong cs.length))
  match Decimal.digitsIn 10 cs with
  | some n => return n
  | none => malformed

/-- A directive line. -/
def directive : Lex Token := do
  advance 1
  let name ← takeWhile isNameChar
  if name.isEmpty || !isSpaceOrEnd (← peek 0) then malformed
  let t ←
    if name == "YAML".toList then
      skipSpaces
      let major ← number
      if (← peek 0) != '.' then malformed
      advance 1
      let _ ← number
      if !isSpaceOrEnd (← peek 0) then malformed
      pure (.version major)
    else if name == "TAG".toList then
      skipSpaces
      let handle ← tagHandle
      if (← peek 0) != ' ' then malformed
      skipSpaces
      let target ← tagSuffix
      if !isSpaceOrEnd (← peek 0) then malformed
      pure (.tagHandle handle target)
    else
      let _ ← takeWhile (!isBreakOrEnd ·)
      pure .unknownDirective
  ignoredLine
  return t

/-- Whether the three characters here separate documents. -/
def atSeparator : Lex Bool := do
  let l ← get
  let mark := l.rest.take 3
  return (mark == "---".toList || mark == "...".toList) && isBlankOrEnd (l.peekAt 3)

/-- What happens to the line ends at the end of a block scalar. -/
inductive Chomping where
  | strip
  | clip
  | keep
deriving DecidableEq

private def chompingOf (c : Char) : Option Chomping :=
  if c == '+' then some .keep else if c == '-' then some .strip else none

def incrementOf (c : Char) : Lex (Option Nat) := do
  if c == '0' then malformed
  return if c.isDigit then some (c.toNat - 48) else none

/-- The marks after the first character of a block scalar: chomping and indentation, in either
order. -/
def blockHeader : Lex (Chomping × Option Nat) := do
  let c ← peek 0
  let header ← match chompingOf c with
    | some chomping => do
      advance 1
      match ← incrementOf (← peek 0) with
      | some n =>
        advance 1
        pure (chomping, some n)
      | none => pure (chomping, none)
    | none => do
      match ← incrementOf c with
      | some n =>
        advance 1
        match chompingOf (← peek 0) with
        | some chomping =>
          advance 1
          pure (chomping, some n)
        | none => pure (.clip, some n)
      | none => pure (.clip, none)
  if isSpaceOrEnd (← peek 0) then return header else malformed

/-- The line ends before a block scalar whose indentation is not given, and the largest column
among their spaces. -/
def leadingBreaks : (room : Nat) → Lex (List Char × Nat)
  | 0 => return ([], 0)
  | room + 1 => do
    let spaces ← takeWhile (· == ' ')
    let l ← get
    let column := if spaces.isEmpty then 0 else l.column
    let b ← lineBreak
    if b.isEmpty then return ([], column)
    else
      let (more, deepest) ← leadingBreaks room
      return (b ++ more, max column deepest)

private def spacesTo (indent : Nat) : Lex Unit := do
  let l ← get
  advance ((l.rest.take (indent - l.column)).takeWhile (· == ' ')).length

/-- The empty lines before the next line of a block scalar. -/
def blockBreaks (indent : Nat) : (room : Nat) → Lex (List Char)
  | 0 => return []
  | room + 1 => do
    spacesTo indent
    let b ← lineBreak
    if b.isEmpty then return []
    else return b ++ (← blockBreaks indent room)

/-- The lines of a block scalar from the first one that is not empty. -/
def blockLines (folded : Bool) (chomping : Chomping) (indent : Nat) (breaks : List Char) :
    (room : Nat) → Lex (List Char)
  | 0 => return []
  | room + 1 => do
    let first ← peek 0
    let text ← takeWhile (!isBreakOrEnd ·)
    let lineEnd ← lineBreak
    let next ← blockBreaks indent ((← get).size + 1)
    let l ← get
    let c := l.peekAt 0
    if l.column == indent && c != endMark then
      let joins := folded && lineEnd == ['\n'] && !(first == ' ' || first == '\t') &&
        !(c == ' ' || c == '\t')
      let between := if joins then (if next.isEmpty then [' '] else []) else lineEnd
      return breaks ++ text ++ between ++ (← blockLines folded chomping indent next room)
    else
      let final := if chomping == .strip then [] else lineEnd
      return breaks ++ text ++ final ++ (if chomping == .keep then next else [])

def blockScalar (folded : Bool) : Lex String := do
  advance 1
  let (chomping, increment) ← blockHeader
  ignoredLine
  let least := ((← get).indent + 1).toNat.max 1
  let room := (← get).size + 1
  let (breaks, indent) ← match increment with
    | some n => do
      let indent := least + n - 1
      pure (← blockBreaks indent room, indent)
    | none => do
      let (breaks, deepest) ← leadingBreaks room
      pure (breaks, max least deepest)
  let l ← get
  if l.column == indent && l.peekAt 0 != endMark then
    return String.ofList (← blockLines folded chomping indent breaks room)
  else return String.ofList (if chomping == .keep then breaks else [])

/-- The empty lines inside a quoted scalar. -/
def quotedBreaks : (room : Nat) → Lex (List Char)
  | 0 => return []
  | room + 1 => do
    if ← atSeparator then malformed
    let _ ← takeWhile fun c => c == ' ' || c == '\t'
    let b ← lineBreak
    if b.isEmpty then return []
    else return b ++ (← quotedBreaks room)

private def escapes : List (Char × Char) :=
  [('0', '\x00'), ('a', '\x07'), ('b', '\x08'), ('t', '\t'), ('\t', '\t'), ('n', '\n'),
    ('v', '\x0b'), ('f', '\x0c'), ('r', '\r'), ('e', '\x1b'), (' ', ' '), ('\x22', '\x22'),
    ('\\', '\\'), ('/', '/'), ('N', '\x85'), ('_', '\xa0'), ('L', '\u2028'), ('P', '\u2029')]

/-- The number of hexadecimal digits after the mark of a numeric escape. -/
private def escapeSize : Char → Option Nat
  | 'x' => some 2
  | 'u' => some 4
  | 'U' => some 8
  | _ => none

/-- What follows a backslash in double quotes. A surrogate stays alone, also before another one. -/
def quotedEscape : Lex (List Char) := do
  let c ← peek 0
  match escapes.lookup c, escapeSize c with
  | some meant, _ => do
    advance 1
    return [meant]
  | none, some n => do
    advance 1
    let code ← hexDigits n
    if code ≥ 0x80000000 then throw (.fault .codePointSize)
    if code ≥ 0x110000 then throw (.fault .codePoint)
    return [Text.charOf code]
  | none, none => do
    if isBreak c then
      let _ ← lineBreak
      quotedBreaks ((← get).size + 1)
    else malformed

/-- The characters up to the next blank or the closing quote. -/
def quotedRun (double : Bool) : (room : Nat) → Lex (List Char)
  | 0 => return []
  | room + 1 => do
    let c ← peek 0
    if isBlankOrEnd c then return []
    else if !double && c == '\x27' && (← peek 1) == '\x27' then
      advance 2
      return c :: (← quotedRun double room)
    else if c == (if double then '\x22' else '\x27') then return []
    else if double && c == '\\' then
      advance 1
      let cs ← quotedEscape
      return cs ++ (← quotedRun double room)
    else
      advance 1
      return c :: (← quotedRun double room)

/-- The blanks between two runs; a line end among them is folded. -/
def quotedBlanks : Lex (List Char) := do
  let blanks ← takeWhile fun c => c == ' ' || c == '\t'
  if (← peek 0) == endMark then malformed
  let b ← lineBreak
  if b.isEmpty then return blanks
  else
    let more ← quotedBreaks ((← get).size + 1)
    if b != ['\n'] then return b ++ more
    else if more.isEmpty then return [' ']
    else return more

/-- Runs and blanks up to the closing quote. -/
def quotedRest (double : Bool) : (room : Nat) → Lex (List Char)
  | 0 => malformed
  | room + 1 => do
    let cs ← quotedRun double ((← get).size + 1)
    if (← peek 0) == (if double then '\x22' else '\x27') then
      advance 1
      return cs
    else
      let blanks ← quotedBlanks
      return cs ++ blanks ++ (← quotedRest double room)

def quotedScalar (double : Bool) : Lex String := do
  advance 1
  return String.ofList (← quotedRest double ((← get).size + 1))

/-- The characters of a plain scalar up to a blank or a mark. -/
def plainRun (flow : Bool) : List Char → List Char
  | [] => []
  | c :: rest =>
    let next := rest.headD endMark
    if isBlankOrEnd c || (c == ':' && (isBlankOrEnd next ||
        (flow && ",[]\x7b\x7d".toList.contains next))) ||
      (flow && ",?[]\x7b\x7d".toList.contains c) then []
    else c :: plainRun flow rest

/-- The line ends between the lines of a plain scalar; nothing when a document ends there. -/
def plainBreaks : (room : Nat) → Lex (Option (List Char))
  | 0 => return some []
  | room + 1 => do
    if ← atSeparator then return none
    skipSpaces
    let b ← lineBreak
    if b.isEmpty then return some []
    else return (← plainBreaks room).map (b ++ ·)

/-- The blanks after a run of a plain scalar, folded; nothing when the scalar cannot go on. -/
def plainBlanks : Lex (List Char) := do
  let spaces ← takeWhile (· == ' ')
  let b ← lineBreak
  if b.isEmpty then return spaces
  else
    allowKey true
    match ← plainBreaks ((← get).size + 1) with
    | none => return []
    | some more =>
      if b != ['\n'] then return b ++ more
      else if more.isEmpty then return [' ']
      else return more

/-- The runs of a plain scalar, with `blanks` before the next one. -/
def plainRest (indent : Int) (blanks : List Char) : (room : Nat) → Lex (List Char)
  | 0 => return []
  | room + 1 => do
    let l ← get
    let run := if l.peekAt 0 == '#' then [] else plainRun (l.flow != 0) l.rest
    if run.isEmpty then return []
    else
      allowKey false
      advance run.length
      let next ← plainBlanks
      let l ← get
      if next.isEmpty || l.peekAt 0 == '#' || (l.flow == 0 && l.column < indent) then
        return blanks ++ run
      else return blanks ++ run ++ (← plainRest indent next room)

def plainScalar : Lex String := do
  let l ← get
  return String.ofList (← plainRest (l.indent + 1) [] (l.size + 1))

/-- Whether a plain scalar can start here. -/
def startsPlain (l : Lexer) : Bool :=
  let c := l.peekAt 0
  !(isBlankOrEnd c || "-?:,[]\x7b\x7d#&*!|>\x27\x22%@\x60".toList.contains c) ||
    (!isBlankOrEnd (l.peekAt 1) && (c == '-' || (l.flow == 0 && (c == '?' || c == ':'))))

/-- A mark that starts or ends a document or a directive ends all blocks before it. -/
def leaveBlocks : Lex Unit := do
  unwind (-1)
  forgetKey
  allowKey false

def flowStart (t : Token) : Lex Unit := do
  rememberKey
  modify fun l => { l with flow := l.flow + 1, keyAllowed := true }
  advance 1
  emit t

def flowEnd (t : Token) : Lex Unit := do
  forgetKey
  if (← get).flow == 0 then malformed
  modify fun l => { l with flow := l.flow - 1, keyAllowed := false }
  advance 1
  emit t

/-- A mark that may start a block: `started` comes first when it does. -/
def blockMark (started : Token) : Lex Unit := do
  let l ← get
  if l.flow == 0 then
    if !l.keyAllowed then malformed
    if ← openBlock l.column then emit started

def blockEntry : Lex Unit := do
  blockMark .blockSequenceStart
  allowKey true
  forgetKey
  advance 1
  emit .blockEntry

def keyMark : Lex Unit := do
  blockMark .blockMappingStart
  allowKey ((← get).flow == 0)
  forgetKey
  advance 1
  emit .key

/-- A colon. It turns the possible key of this level into a key. -/
def valueMark : Lex Unit := do
  let l ← get
  match possibleHere l with
  | some k =>
    set (dropPossible l)
    let starts ← if l.flow == 0 then openBlock k.column else pure false
    modify fun l =>
      { l with tokens := l.tokens.insertIdxIfInBounds k.token .key, keyAllowed := false }
    if starts then
      modify fun l =>
        { l with tokens := l.tokens.insertIdxIfInBounds k.token .blockMappingStart }
  | none =>
    blockMark .blockMappingStart
    allowKey (l.flow == 0)
    forgetKey
  advance 1
  emit .value

/-- A token that may be a key. -/
def content (read : Lex Token) : Lex Unit := do
  rememberKey
  allowKey false
  emit (← read)

/-- Reads the next token; `false` at the end of the text. -/
def next : Lex Bool := do
  skipToToken ((← get).size + 1)
  forgetStaleKeys
  unwind (← get).column
  let l ← get
  let c := l.peekAt 0
  if c == endMark then
    leaveBlocks
    return false
  if c == '%' && l.column == 0 then
    leaveBlocks
    emit (← directive)
  else if l.column == 0 && (← atSeparator) then
    leaveBlocks
    advance 3
    emit (if c == '-' then .documentStart else .documentEnd)
  else if c == '[' then flowStart .flowSequenceStart
  else if c == '\x7b' then flowStart .flowMappingStart
  else if c == ']' then flowEnd .flowSequenceEnd
  else if c == '\x7d' then flowEnd .flowMappingEnd
  else if c == ',' then
    allowKey true
    forgetKey
    advance 1
    emit .flowEntry
  else if c == '-' && isBlankOrEnd (l.peekAt 1) then blockEntry
  else if c == '?' && (l.flow != 0 || isBlankOrEnd (l.peekAt 1)) then keyMark
  else if c == ':' && (l.flow != 0 || isBlankOrEnd (l.peekAt 1)) then valueMark
  else if c == '*' then content (return .alias (← anchorName))
  else if c == '&' then content (return .anchor (← anchorName))
  else if c == '!' then content (return .tag (← tag))
  else if (c == '|' || c == '>') && l.flow == 0 then
    allowKey true
    forgetKey
    emit (.scalar (← blockScalar (c == '>')) false)
  else if c == '\x27' || c == '\x22' then
    content (return .scalar (← quotedScalar (c == '\x22')) false)
  else if startsPlain l then
    rememberKey
    allowKey false
    emit (.scalar (← plainScalar) true)
  else malformed
  return true

end Lex

/-- The tokens that are settled: none from the first one on that a colon could still turn into a
key. -/
def Lexer.settled (l : Lexer) : List Token :=
  let waiting := l.possible.filter fun (_, k) => !Lex.isStale l k
  l.tokens.toList.take (waiting.foldl (fun n (_, k) => min n k.token) l.tokens.size)

/-- The tokens of what is left of a text; every token takes at least one character. A text that
is broken further on hides the tokens that are not settled by then. -/
def Lexer.run (l : Lexer) : (room : Nat) → List Token
  | 0 => l.tokens.toList
  | room + 1 =>
    match Lex.next l with
    | .error e => l.settled ++ [.broken e]
    | .ok (true, l) => l.run room
    | .ok (false, l) => l.tokens.toList

/-- The characters that a document may hold. -/
def isAllowed (c : Char) : Bool :=
  let n := c.toNat
  c == '\t' || c == '\n' || c == '\r' || (0x20 ≤ n && n ≤ 0x7e) || n == 0x85 ||
  (0xa0 ≤ n && n ≤ 0xd7ff) || (0xe000 ≤ n && n ≤ 0xfffd) || 0x10000 ≤ n

/-- The tokens of a text whose line ends are line feeds. -/
def tokens (text : String) : List Token :=
  let cs := text.toList
  if cs.all isAllowed then Lexer.run { rest := cs, size := cs.length } (cs.length + 2)
  else [.broken .malformed]

end SchemaCompiler.Yaml
