import SchemaCompiler.Decimal.Read
import SchemaCompiler.Text.Case
import SchemaCompiler.Value.Basic
import SchemaCompiler.Yaml.Tree

/-!
The values that scalars stand for. A plain scalar shows by its form which kind of value it is; a
marked one has to be readable as its kind.
-/
namespace SchemaCompiler.Yaml

/-- The name of a tag that every document knows. -/
def coreTag (name : String) : String := Parse.coreTags ++ name

def boolWords : List (String × Bool) :=
  [("yes", true), ("no", false), ("true", true), ("false", false), ("on", true), ("off", false)]

namespace Plain

/-- The text without one line feed at its end. -/
def withoutBreak (s : String) : String :=
  match s.toList.reverse with
  | '\n' :: rest => String.ofList rest.reverse
  | _ => s

/-- A word in lower case, in upper case, or with one capital in front. -/
def isWord (word text : String) : Bool :=
  text == word || text == word.map Char.toUpper || text == word.capitalize

def isNull (s : String) : Bool := s == "" || s == "~" || isWord "null" s

def isBool (s : String) : Bool := boolWords.any fun (word, _) => isWord word s

def unsigned (cs : List Char) : List Char :=
  match cs with
  | '-' :: rest | '+' :: rest => rest
  | cs => cs

def isDigits (cs : List Char) : Bool := !cs.isEmpty && cs.all Char.isDigit

def isSpaced (cs : List Char) : Bool := cs.all fun c => c.isDigit || c == '_'

def startsWithDigit (cs : List Char) : Bool := cs.head?.any Char.isDigit

/-- The parts between separators. -/
def splitAt (separator : Char) : List Char → List (List Char)
  | [] => [[]]
  | c :: rest =>
    match splitAt separator rest with
    | [] => [[c]]
    | part :: parts => if c == separator then [] :: part :: parts else (c :: part) :: parts

/-- A part of a number in base sixty, after the first part. -/
def isSixtieth (cs : List Char) : Bool :=
  match cs with
  | [a] => a.isDigit
  | [a, b] => '0' ≤ a && a ≤ '5' && b.isDigit
  | _ => false

/-- Digits and colons: parts in base sixty after a part that satisfies `first`. -/
def isSexagesimal (first : List Char → Bool) (cs : List Char) : Bool :=
  match splitAt ':' cs with
  | part :: parts => first part && !parts.isEmpty && parts.all isSixtieth
  | [] => false

def isHexDigit (c : Char) : Bool :=
  c.isDigit || ('a' ≤ c && c ≤ 'f') || ('A' ≤ c && c ≤ 'F')

private def isIn (cs : List Char) (accepts : Char → Bool) : Bool :=
  !cs.isEmpty && cs.all fun c => accepts c || c == '_'

def isInt (s : String) : Bool :=
  let decimal (cs : List Char) : Bool := startsWithDigit cs && cs.head? != some '0' && isSpaced cs
  match unsigned s.toList with
  | ['0'] => true
  | '0' :: 'b' :: rest => isIn rest fun c => c == '0' || c == '1'
  | '0' :: 'x' :: rest => isIn rest isHexDigit
  | '0' :: rest => isIn rest fun c => '0' ≤ c && c ≤ '7'
  | cs => decimal cs || isSexagesimal decimal cs

/-- An exponent with its sign, or nothing. -/
def isExponent (cs : List Char) : Bool :=
  match cs with
  | [] => true
  | e :: mark :: rest => (e == 'e' || e == 'E') && (mark == '-' || mark == '+') && isDigits rest
  | _ => false

def isFloat (s : String) : Bool :=
  let cs := s.toList
  let body := unsigned cs
  let fraction (cs : List Char) : Bool :=
    isExponent (cs.dropWhile fun c => c.isDigit || c == '_')
  let whole := body.takeWhile (· != '.')
  match body.drop whole.length with
  | [] => false
  | _ :: rest =>
    if whole.isEmpty then
      (body == cs && startsWithDigit rest && fraction rest) ||
        isWord "inf" (String.ofList rest) ||
        (body == cs && ["nan", "NaN", "NAN"].contains (String.ofList rest))
    else
      (startsWithDigit whole && isSpaced whole && fraction rest) ||
        (isSexagesimal (fun p => startsWithDigit p && isSpaced p) whole && isSpaced rest)

end Plain

/-- A timestamp as written. -/
structure Stamp where
  date : Date
  /-- Hour, minute, second, microsecond and offset. -/
  time : Option (Nat × Nat × Nat × Nat × Option Int)

namespace Stamp

/-- A number of at least `least` and at most `most` digits. -/
def digits (least most : Nat) (cs : List Char) : Option (Nat × List Char) :=
  let ds := (cs.take most).takeWhile Char.isDigit
  if ds.length < least then none
  else (Decimal.digitsIn 10 ds).map fun n => (n, cs.drop ds.length)

def mark (c : Char) : List Char → Option (List Char)
  | d :: rest => if d == c then some rest else none
  | [] => none

def isGap (c : Char) : Bool := c == ' ' || c == '\t'

/-- The offset at the end of a time. -/
def offset (cs : List Char) : Option (Option Int) :=
  match cs.dropWhile isGap with
  | [] => if cs.isEmpty then some none else none
  | ['Z'] => some (some 0)
  | s :: rest =>
    if s == '+' || s == '-' then do
      let (hours, rest) ← digits 1 2 rest
      let (minutes, rest) ← match rest with
        | [] => some (0, [])
        | _ => (mark ':' rest).bind (digits 2 2)
      if !rest.isEmpty then none
      let total : Int := (hours * 60 + minutes : Nat)
      return some (if s == '-' then -total else total)
    else none

/-- The first six digits after the point of a second, filled up with zeros. -/
def microseconds (ds : List Char) : Nat :=
  (Decimal.digitsIn 10 ((ds ++ List.replicate 6 '0').take 6)).getD 0

def readTime (cs : List Char) : Option (Nat × Nat × Nat × Nat × Option Int) := do
  let (hour, cs) ← digits 1 2 cs
  let (minute, cs) ← (mark ':' cs).bind (digits 2 2)
  let (second, cs) ← (mark ':' cs).bind (digits 2 2)
  let (fraction, cs) := match cs with
    | '.' :: rest => (rest.takeWhile Char.isDigit, rest.dropWhile Char.isDigit)
    | _ => ([], cs)
  return (hour, minute, second, microseconds fraction, ← offset cs)

def read? (s : String) : Option Stamp := do
  let (year, cs) ← digits 4 4 (Plain.withoutBreak s).toList
  let (month, cs) ← (mark '-' cs).bind (digits 1 2)
  let (day, cs) ← (mark '-' cs).bind (digits 1 2)
  let date : Date := ⟨year, month, day⟩
  match cs with
  | [] => return ⟨date, none⟩
  | c :: rest =>
    if c == 'T' || c == 't' then return ⟨date, some (← readTime rest)⟩
    else if isGap c then return ⟨date, some (← readTime (rest.dropWhile isGap))⟩
    else none

/-- Whether a plain scalar is a timestamp: a date without a time has all its digits. -/
def isPlain (s : String) : Bool :=
  match read? s with
  | some stamp => stamp.time.isSome || (Plain.withoutBreak s).length == 10
  | none => false

/-- The value of a timestamp, if there is such a day and time. -/
def value (t : Stamp) : Except CalendarError Scalar :=
  match t.time with
  | none => Scalar.date <$> t.date.check
  | some (hour, minute, second, micro, offset) =>
    Scalar.time <$> DateTime.check ⟨t.date, hour, minute, second, micro, offset⟩

end Stamp

/-- The tag that a form stands for. -/
def formTag (s : String) : String :=
  if Plain.isBool s then coreTag "bool"
  else if Plain.isFloat s then coreTag "float"
  else if Plain.isInt s then coreTag "int"
  else if s == "<<" then coreTag "merge"
  else if Plain.isNull s then coreTag "null"
  else if Stamp.isPlain s then coreTag "timestamp"
  else if s == "=" then coreTag "value"
  else if s == "!" || s == "&" || s == "*" then coreTag "yaml"
  else coreTag "str"

/-- The tag of a plain scalar. One line feed may follow its form, unless the form is empty. -/
def plainTag (s : String) : String :=
  if s == "\n" then coreTag "str" else formTag (Plain.withoutBreak s)

/-- A text without underscores, as a sign and what follows it. -/
def signed (s : String) : Except Fault (Bool × List Char) :=
  match s.toList.filter (· != '_') with
  | [] => .error .emptyNumber
  | '-' :: rest => .ok (true, rest)
  | '+' :: rest => .ok (false, rest)
  | cs => .ok (false, cs)

def intIn (base : Nat) (cs : List Char) : Except Fault Int :=
  match Decimal.readInt base (String.ofList cs) with
  | .ok n => .ok n
  | .error (.tooLong digits) => .error (.intTooLong digits)
  | .error .malformed => .error (.int base (String.ofList cs))

/-- A number from its parts in base sixty. -/
def sixties (parts : List Int) : Int := parts.foldl (fun n p => 60 * n + p) 0

def readInt (s : String) : Except Fault Int := do
  let (negative, cs) ← signed s
  let n ← match cs with
    | [] => .error .emptyNumber
    | ['0'] => .ok 0
    | '0' :: 'b' :: rest => intIn 2 rest
    | '0' :: 'x' :: rest => intIn 16 rest
    | '0' :: _ => intIn 8 cs
    | _ =>
      if cs.contains ':' then sixties <$> (Plain.splitAt ':' cs).mapM (intIn 10)
      else intIn 10 cs
  return if negative then -n else n

def floatOf (cs : List Char) : Except Fault Float :=
  match Decimal.readFloat? (String.ofList cs) with
  | some x => .ok x
  | none => .error (.float (String.ofList cs))

/-- The sum of parts, the last one first, each taken sixty times as often as the one before. -/
def sixtyFloats (sum : Float) (base : Nat) : List Float → Except Fault Float
  | [] => .ok sum
  | part :: rest =>
    match Decimal.nearest? base with
    | some times => sixtyFloats (sum + part * times) (base * 60) rest
    | none => .error .intTooLarge

/-- Whether a number is written as the one that is none. -/
def isNotANumber (s : String) : Bool :=
  match signed (Text.lower s) with
  | .ok (_, cs) => String.ofList cs == ".nan"
  | .error _ => false

def readFloat (s : String) : Except Fault Float := do
  let (negative, cs) ← signed (Text.lower s)
  if isNotANumber s then return 0.0 / 0.0
  let x ←
    if String.ofList cs == ".inf" then .ok (1.0 / 0.0)
    else if cs.contains ':' then do
      sixtyFloats 0.0 1 (← (Plain.splitAt ':' cs).mapM floatOf).reverse
    else floatOf cs
  return if negative then -x else x

def readBool (s : String) : Except Fault Bool :=
  match boolWords.lookup (Text.lower s) with
  | some b => .ok b
  | none => .error (.bool (Text.lower s))

def readStamp (s : String) : Except Fault Scalar :=
  match Stamp.read? s with
  | none => .error .timestamp
  | some t =>
    match t.value with
    | .ok v => .ok v
    | .error e => .error (.calendar e)

private def sextet (c : Char) : Option Nat :=
  if 'A' ≤ c && c ≤ 'Z' then some (c.toNat - 65)
  else if 'a' ≤ c && c ≤ 'z' then some (c.toNat - 71)
  else if c.isDigit then some (c.toNat + 4)
  else if c == '+' then some 62
  else if c == '/' then some 63
  else none

/-- The bytes of base 64 text. Other characters are passed over; two equals signs, or one after
three characters of a group, end the text. `group` holds the sextets of a group that is begun, and
`padding` counts equals signs in a row. -/
def base64 (group : List Nat) (padding : Nat) : List Char → Option (List UInt8)
  | [] => if group.isEmpty then some [] else none
  | c :: rest =>
    if c == '=' then
      if group.length ≥ 2 && group.length + padding + 1 ≥ 4 then some []
      else base64 group (padding + 1) rest
    else
      match sextet c with
      | none => base64 group padding rest
      | some n =>
        match group with
        | [] => base64 [n] 0 rest
        | [a] => (base64 [a, n] 0 rest).map (UInt8.ofNat (a * 4 + n / 16) :: ·)
        | [a, b] => (base64 [a, b, n] 0 rest).map (UInt8.ofNat (b % 16 * 16 + n / 4) :: ·)
        | _ => (base64 [] 0 rest).map (UInt8.ofNat (group.getLastD 0 % 4 * 64 + n) :: ·)

def readBytes (s : String) : Option (List UInt8) :=
  if s.toList.all (·.toNat < 0x80) then base64 [] 0 s.toList else none

end SchemaCompiler.Yaml
