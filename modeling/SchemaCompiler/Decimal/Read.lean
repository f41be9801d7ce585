import SchemaCompiler.Text.Blank
import SchemaCompiler.Text.Digit

/-! Reading numbers from text: whole numbers in a base, and floating-point numbers. -/
namespace SchemaCompiler.Decimal

/-- The most digits of a whole number that is read from decimal digits or shown in them. -/
def mostDigits : Nat := 4300

/-- Whether a whole number has few enough digits to be shown. -/
def isShort (n : Int) : Bool := n.natAbs < Nat.pow 10 mostDigits

/-- A blank that may surround a number; the separators below the space may not. -/
def isPadding (c : Char) : Bool := Text.isBlank c && !(0x1c ≤ c.toNat && c.toNat ≤ 0x1f)

/-- The characters of a number without blanks around them and with digits of ASCII only. -/
def trimmed (s : String) : List Char :=
  let cs := (s.toList.dropWhile isPadding).reverse.dropWhile isPadding
  cs.reverse.map Text.westernDigit

/-- The value of a digit, letters continuing after nine. -/
def digitValue (c : Char) : Option Nat :=
  if c.isDigit then some (c.toNat - 48)
  else if 'a' ≤ c && c ≤ 'z' then some (c.toNat - 87)
  else if 'A' ≤ c && c ≤ 'Z' then some (c.toNat - 55)
  else none

/-- Whether underscores stand one by one between other characters. -/
def isApart (cs : List Char) : Bool :=
  cs.head? != some '_' && cs.getLast? != some '_' &&
    !(cs.zip cs.tail).any fun (a, b) => a == '_' && b == '_'

/-- Digits of a base, with single underscores allowed between them. -/
def digitsIn (base : Nat) (cs : List Char) : Option Nat :=
  let digits := cs.filter (· != '_')
  if digits.isEmpty || !isApart cs then none
  else digits.foldlM (fun n c => do
    let d ← digitValue c
    if d < base then some (base * n + d) else none) 0

/-- Splits a sign off. -/
def sign : List Char → Bool × List Char
  | '-' :: rest => (true, rest)
  | '+' :: rest => (false, rest)
  | cs => (false, cs)

/-- The marks that may stand before the digits of a base. -/
def baseMarks : Nat → List Char
  | 2 => ['b', 'B']
  | 8 => ['o', 'O']
  | 16 => ['x', 'X']
  | _ => []

/-- Why a text is no whole number. -/
inductive IntError where
  | malformed
  | tooLong (digits : Nat)

/-- The number of decimal digits at the start of a text, underscores between them left out. -/
def leadingDigits (cs : List Char) : Nat :=
  let run := cs.takeWhile fun c => c.isDigit || c == '_'
  if isApart run then (run.filter (· != '_')).length else 0

/-- A whole number: blanks around it, a sign, and a mark of the base are allowed. Too many decimal
digits are refused whatever comes after them. -/
def readInt (base : Nat) (s : String) : Except IntError Int :=
  let (negative, cs) := sign (trimmed s)
  let cs := match cs with
    | '0' :: mark :: rest =>
      if (baseMarks base).contains mark then
        match rest with
        | '_' :: rest => rest
        | _ => rest
      else cs
    | _ => cs
  let digits := leadingDigits cs
  if base == 10 && digits > mostDigits then .error (.tooLong digits)
  else
    match digitsIn base cs with
    | some n => .ok (if negative then -(n : Int) else n)
    | none => .error .malformed

private def lowerAscii (cs : List Char) : List Char := cs.map Char.toLower

/-- The exponent at the end of a number; nothing stands for zero. -/
def readExponent? : List Char → Option Int
  | [] => some 0
  | e :: rest =>
    if e == 'e' || e == 'E' then
      let (negative, digits) := sign rest
      (digitsIn 10 digits).map fun n => if negative then -(n : Int) else n
    else none

/-- `digits * 10 ^ exponent`, rounded to the nearest number. -/
def scale (digits : Nat) (exponent : Int) : Float :=
  if digits == 0 then 0.0
  else if exponent + (Nat.toDigits 10 digits).length > 400 then 1.0 / 0.0
  else if exponent + (Nat.toDigits 10 digits).length < -400 then 0.0
  else
    match exponent with
    | .ofNat e => Float.ofScientific digits false e
    | .negSucc e => Float.ofScientific digits true (e + 1)

/-- The floating-point number nearest to a whole number, if there is one. -/
def nearest? (n : Nat) : Option Float :=
  let x := scale n 0
  if x.isInf then none else some x

/-- An unsigned decimal number: digits with at most one point and an exponent. -/
def readUnsigned? (cs : List Char) : Option Float := do
  let isPart (c : Char) : Bool := c.isDigit || c == '_'
  let whole := cs.takeWhile isPart
  let rest := cs.drop whole.length
  let (fraction, rest) := match rest with
    | '.' :: rest => (rest.takeWhile isPart, rest.dropWhile isPart)
    | _ => ([], rest)
  let exponent ← readExponent? rest
  if whole.isEmpty && fraction.isEmpty then none
  let read (part : List Char) : Option Nat := if part.isEmpty then some 0 else digitsIn 10 part
  let whole ← read whole
  let size := (fraction.filter (· != '_')).length
  let fraction ← read fraction
  return scale (whole * Nat.pow 10 size + fraction) (exponent - size)

/-- A floating-point number: blanks around it, a sign, infinity and not-a-number are allowed. -/
def readFloat? (s : String) : Option Float :=
  let (negative, cs) := sign (trimmed s)
  let size :=
    if ["inf", "infinity"].contains (String.ofList (lowerAscii cs)) then some (1.0 / 0.0)
    else if String.ofList (lowerAscii cs) == "nan" then some (0.0 / 0.0)
    else readUnsigned? cs
  size.map fun x => if negative then -x else x

end SchemaCompiler.Decimal
