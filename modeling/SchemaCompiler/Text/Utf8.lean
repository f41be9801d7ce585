import SchemaCompiler.Text.Quoted

/-! The first place at which bytes are not UTF-8. -/
namespace SchemaCompiler.Text

inductive Utf8Cause where
  | startByte
  | continuationByte
  | endOfData
deriving DecidableEq

/-- A sequence of `length` bytes that starts with `byte` and stands for no character. -/
structure Utf8Fault where
  position : Nat
  byte : UInt8
  length : Nat
  cause : Utf8Cause
deriving DecidableEq

def Utf8Cause.message : Utf8Cause → String
  | .startByte => "invalid start byte"
  | .continuationByte => "invalid continuation byte"
  | .endOfData => "unexpected end of data"

def Utf8Fault.message (f : Utf8Fault) : String :=
  let place :=
    if f.length == 1 then
      "byte 0x" ++ String.ofList (hex 2 f.byte.toNat) ++ s!" in position {f.position}"
    else s!"bytes in position {f.position}-{f.position + f.length - 1}"
  "'utf-8' codec can't decode " ++ place ++ s!": {f.cause.message}"

/-- The least and the greatest byte that may come second. The narrow ranges leave out overlong
forms, surrogates and what is beyond the last code point. -/
def secondByte (first : UInt8) : UInt8 × UInt8 :=
  if first == 0xe0 then (0xa0, 0xbf)
  else if first == 0xed then (0x80, 0x9f)
  else if first == 0xf0 then (0x90, 0xbf)
  else if first == 0xf4 then (0x80, 0x8f)
  else (0x80, 0xbf)

/-- How many bytes follow a first byte. -/
def followers? (first : UInt8) : Option Nat :=
  if first < 0x80 then some 0
  else if first < 0xc2 then none
  else if first < 0xe0 then some 1
  else if first < 0xf0 then some 2
  else if first < 0xf5 then some 3
  else none

/-- A sequence that is being read: where it starts, its first byte, how many bytes it has so far and
how many are to come, and the range of the next one. -/
structure Utf8Open where
  position : Nat
  byte : UInt8
  length : Nat
  left : Nat
  range : UInt8 × UInt8

def utf8FaultFrom (position : Nat) : Option Utf8Open → List UInt8 → Option Utf8Fault
  | none, [] => none
  | some o, [] => some ⟨o.position, o.byte, o.length, .endOfData⟩
  | none, b :: rest =>
    match followers? b with
    | none => some ⟨position, b, 1, .startByte⟩
    | some 0 => utf8FaultFrom (position + 1) none rest
    | some n => utf8FaultFrom (position + 1) (some ⟨position, b, 1, n, secondByte b⟩) rest
  | some o, b :: rest =>
    if b < o.range.1 || o.range.2 < b then
      some ⟨o.position, o.byte, o.length, .continuationByte⟩
    else if o.left ≤ 1 then utf8FaultFrom (position + 1) none rest
    else
      utf8FaultFrom (position + 1)
        (some { o with length := o.length + 1, left := o.left - 1, range := (0x80, 0xbf) }) rest

def utf8Fault? (bytes : List UInt8) : Option Utf8Fault := utf8FaultFrom 0 none bytes

end SchemaCompiler.Text
