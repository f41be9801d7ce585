import SchemaCompiler.Text.Digit
import SchemaCompiler.Text.Quoted

/-!
The width part of a pattern field: `[[fill]align][sign][z][#][0][width][,_][.precision][s]`. For a
text it may cut and pad; everything that is about numbers is refused.
-/
namespace SchemaCompiler.Text

inductive AlignmentError where
  | malformed (spec : String)
  | tooManyDigits
  | missingPrecision
  | twoSeparators
  | separator (mark : Char) (kind : Char)
  | unknownKind (kind : Char)
  | sign
  | blankSign
  | negativeZero
  | alternateForm
  | numericAlignment

def AlignmentError.message : AlignmentError → String
  | .malformed spec => s!"Invalid format specifier '{spec}' for object of type 'str'"
  | .tooManyDigits => "Too many decimal digits in format string"
  | .missingPrecision => "Format specifier missing precision"
  | .twoSeparators => "Cannot specify both ',' and '_'."
  | .separator mark kind => s!"Cannot specify '{mark}' with '{shownKind kind}'."
  | .unknownKind kind => s!"Unknown format code '{shownKind kind}' for object of type 'str'"
  | .sign => "Sign not allowed in string format specifier"
  | .blankSign => "Space not allowed in string format specifier"
  | .negativeZero => "Negative zero coercion (z) not allowed in string format specifier"
  | .alternateForm => "Alternate form (#) not allowed in string format specifier"
  | .numericAlignment => "'=' alignment not allowed in string format specifier"
where
  /-- A character of ASCII as it is, any other one by its number. -/
  shownKind (c : Char) : String :=
    if 32 < c.toNat && c.toNat < 128 then c.toString
    else "\\x" ++ String.ofList (Nat.toDigits 16 c.toNat)

/-- How a text is cut and padded. -/
structure Alignment where
  fill : Char
  side : Char
  width : Nat
  precision : Option Nat

private def isSide (c : Char) : Bool := c == '<' || c == '>' || c == '=' || c == '^'

/-- The largest number that a width or a position may have. -/
def digitLimit : Nat := 9223372036854775807

/-- The leading decimal number of a text, `none` when it has no digits. -/
def leadingNumber (cs : List Char) : Except AlignmentError (Option Nat × List Char) :=
  let digits := cs.takeWhile isDecimal
  if digits.isEmpty then .ok (none, cs)
  else
    let n := digits.foldl (fun n c => 10 * n + (digit? c).getD 0) 0
    if n > digitLimit then .error .tooManyDigits
    else .ok (some n, cs.drop digits.length)

private def take (accepts : Char → Bool) : List Char → Option Char × List Char
  | [] => (none, [])
  | c :: rest => if accepts c then (some c, rest) else (none, c :: rest)

/-- Separators of thousands, and the kind letter that is left after them. -/
private def readSeparators (cs : List Char) : Except AlignmentError (Option Char × List Char) := do
  let (comma, cs) := take (· == ',') cs
  let (underscore, cs) := take (· == '_') cs
  if comma.isSome && underscore.isSome then throw .twoSeparators
  match underscore, cs with
  | some _, ',' :: _ => throw .twoSeparators
  | _, _ => return (comma <|> underscore, cs)

def Alignment.parse? (spec : String) : Except AlignmentError Alignment := do
  let cs := spec.toList
  let (fill, side, cs) := match cs with
    | f :: s :: rest =>
      if isSide s then (some f, some s, rest)
      else if isSide f then (none, some f, s :: rest)
      else (none, none, cs)
    | [s] => if isSide s then (none, some s, []) else (none, none, cs)
    | [] => (none, none, [])
  let (sign, cs) := take (fun c => c == '+' || c == '-' || c == ' ') cs
  let (zero, cs) := take (· == 'z') cs
  let (alternate, cs) := take (· == '#') cs
  let (padded, cs) := if fill.isSome then (none, cs) else take (· == '0') cs
  let (width, cs) ← leadingNumber cs
  let (separator, cs) ← readSeparators cs
  let (precision, cs) ← match cs with
    | '.' :: rest => do
      match ← leadingNumber rest with
      | (none, _) => throw .missingPrecision
      | (some p, rest) => pure (some p, rest)
    | _ => pure (none, cs)
  let kind ← match cs with
    | [] => pure 's'
    | [k] => pure k
    | _ => throw (.malformed spec)
  match separator with
  | some mark => if !("defgEG%F\x00".toList.contains kind ||
      (mark == '_' && "boxX".toList.contains kind)) then throw (.separator mark kind)
  | none => pure ()
  if kind != 's' then throw (.unknownKind kind)
  match sign with
  | some ' ' => throw .blankSign
  | some _ => throw .sign
  | none => pure ()
  if zero.isSome then throw .negativeZero
  if alternate.isSome then throw .alternateForm
  if side == some '=' then throw .numericAlignment
  return ⟨fill.getD (if padded.isSome then '0' else ' '), side.getD '<', width.getD 0, precision⟩

def Alignment.apply (a : Alignment) (s : String) : String :=
  let cs := match a.precision with
    | some p => s.toList.take p
    | none => s.toList
  let missing := a.width - cs.length
  let left := if a.side == '>' then missing else if a.side == '^' then missing / 2 else 0
  String.ofList (List.replicate left a.fill ++ cs ++ List.replicate (missing - left) a.fill)

end SchemaCompiler.Text
