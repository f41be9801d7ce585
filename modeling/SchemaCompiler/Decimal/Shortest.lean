/-!
The decimal text of a floating-point number: the fewest digits that read back as the same number.
The digits come from exact arithmetic on the number's own fraction.
-/
namespace SchemaCompiler.Decimal

/-- A finite positive number `mantissa * 2 ^ exponent`. In `tight` numbers the gap below is half
the gap above. -/
structure Binary where
  mantissa : Nat
  exponent : Int
  tight : Bool

/-- The parts of a positive finite number with the given bits, sign bit aside. -/
def Binary.ofBits (bits : Nat) : Binary :=
  let fraction : Nat := bits % 0x10000000000000
  let power : Nat := bits / 0x10000000000000 % 0x800
  if power == 0 then ⟨fraction, -1074, false⟩
  else ⟨0x10000000000000 + fraction, (power : Int) - 1075, fraction == 0 && power > 1⟩

/-- A fraction of natural numbers. -/
structure Ratio where
  num : Nat
  den : Nat

def Ratio.le (a b : Ratio) : Bool := a.num * b.den ≤ b.num * a.den

def Ratio.lt (a b : Ratio) : Bool := a.num * b.den < b.num * a.den

/-- `n * base ^ exponent`. -/
def Ratio.scaled (n base : Nat) (exponent : Int) : Ratio :=
  match exponent with
  | .ofNat e => ⟨n * base.pow e, 1⟩
  | .negSucc e => ⟨n, base.pow (e + 1)⟩

/-- The distance of two fractions. -/
def Ratio.distance (a b : Ratio) : Ratio :=
  let x := a.num * b.den
  let y := b.num * a.den
  ⟨if x ≤ y then y - x else x - y, a.den * b.den⟩

/-- The real numbers that round to a given one, by their bounds. -/
structure Interval where
  low : Ratio
  high : Ratio
  closed : Bool

def Interval.contains (i : Interval) (r : Ratio) : Bool :=
  if i.closed then i.low.le r && r.le i.high else i.low.lt r && r.lt i.high

def Binary.value (b : Binary) : Ratio := .scaled b.mantissa 2 b.exponent

/-- The bounds lie halfway to the neighbours; they belong to the number with the even mantissa. -/
def Binary.interval (b : Binary) : Interval where
  low := .scaled (4 * b.mantissa - if b.tight then 1 else 2) 2 (b.exponent - 2)
  high := .scaled (4 * b.mantissa + 2) 2 (b.exponent - 2)
  closed := b.mantissa % 2 == 0

/-- The power of ten of the leading digit. -/
def Ratio.magnitude (r : Ratio) : Int :=
  if r.den ≤ r.num then ((Nat.toDigits 10 (r.num / r.den)).length : Int) - 1
  else
    match (List.range 400).find? fun j => r.den ≤ r.num * Nat.pow 10 j with
    | some j => -(j : Int)
    | none => 0

/-- The nearer of two neighbours on a grid, `steps` and the one above it; halfway it is the even
one. -/
def nearer (steps : Nat) (below above : Ratio) : Nat :=
  if below.lt above || (!above.lt below && steps % 2 == 0) then steps else steps + 1

/-- The point of the grid of `10 ^ exponent` that is nearest to `value` and in the interval, by its
number of steps from zero. -/
def gridPoint (i : Interval) (value : Ratio) (exponent : Int) : Option Nat :=
  let steps := match exponent with
    | .ofNat e => value.num / (value.den * Nat.pow 10 e)
    | .negSucc e => value.num * Nat.pow 10 (e + 1) / value.den
  let below := Ratio.scaled steps 10 exponent
  let above := Ratio.scaled (steps + 1) 10 exponent
  match i.contains below, i.contains above with
  | true, true => some (nearer steps (value.distance below) (value.distance above))
  | true, false => some steps
  | false, true => some (steps + 1)
  | false, false => none

/-- A decimal number `digits * 10 ^ exponent`. -/
structure Digits where
  digits : Nat
  exponent : Int

/-- The decimal number of fewest digits in the interval of `b`; seventeen digits always suffice. -/
def Binary.shortest (b : Binary) : Digits :=
  let value := b.value
  let top := value.magnitude
  let candidates := (List.range 17).findSome? fun (n : Nat) =>
    let exponent := top - (n : Int)
    (gridPoint b.interval value exponent).map (Digits.mk · exponent)
  candidates.getD ⟨0, 0⟩

private def zeros (n : Nat) : List Char := List.replicate n '0'

/-- Digits with a point `point` places after their start: positional from `0.0001` up to sixteen
places before the point, else with an exponent of at least two digits. -/
def place (digits : List Char) (point : Int) : List Char :=
  if -4 < point && point ≤ 16 then
    if point ≤ 0 then '0' :: '.' :: zeros (-point).toNat ++ digits
    else
      let whole := digits.take point.toNat
      let rest := digits.drop point.toNat
      whole ++ zeros (point.toNat - whole.length) ++ '.' :: (if rest.isEmpty then ['0'] else rest)
  else
    let exponent := point - 1
    let size := Nat.toDigits 10 exponent.natAbs
    let fraction := if digits.length ≤ 1 then [] else '.' :: digits.drop 1
    digits.take 1 ++ fraction ++ ['e', if exponent < 0 then '-' else '+'] ++
      zeros (2 - size.length) ++ size

/-- The text of a number. -/
def text (x : Float) : String :=
  let bits := x.toBits.toNat
  let negative := bits / 0x8000000000000000 == 1
  let size := bits % 0x8000000000000000
  if size > 0x7ff0000000000000 then "nan"
  else if size == 0x7ff0000000000000 then (if negative then "-inf" else "inf")
  else
    let shown := if size == 0 then ['0', '.', '0'] else
      let d := (Binary.ofBits size).shortest
      let digits := Nat.toDigits 10 d.digits
      let significant := (digits.reverse.dropWhile (· == '0')).reverse
      place significant (d.exponent + digits.length)
    String.ofList (if negative then '-' :: shown else shown)

/-- The whole number that a floating-point number is equal to. -/
def whole? (x : Float) : Option Int :=
  let bits := x.toBits.toNat
  let size := bits % 0x8000000000000000
  if size ≥ 0x7ff0000000000000 then none
  else
    let r := (Binary.ofBits size).value
    if r.num % r.den == 0 then
      let n : Int := (r.num / r.den : Nat)
      some (if bits / 0x8000000000000000 == 1 then -n else n)
    else none

end SchemaCompiler.Decimal
