import SchemaCompiler.Text.Quoted

/-!
Surrogates in texts. An escape in a document can give a single surrogate, and no file can hold one. The
characters of a text are never surrogates here, so other characters stand for them: those for private use
from U+E800 to U+EFFF, unless others are chosen. They are like any other characters until a text is encoded.
-/
namespace SchemaCompiler.Text

/-- The characters that stand for surrogates. Those of ASCII stand for themselves. -/
structure Surrogates where
  code? : Char → Option Nat
  isSurrogate : ∀ {c code}, code? c = some code → 0xD800 ≤ code ∧ code < 0xE000
  ascii : ∀ {c}, c.toNat < 0x80 → code? c = none

/-- The character with a code, or the one that stands for the surrogate with this code. -/
def charOf (code : Nat) : Char :=
  Char.ofNat (if 0xD800 ≤ code && code < 0xE000 then code + 0x1000 else code)

namespace Surrogates

/-- The surrogate with a code that is less by 0x1000. -/
def privateCode? (c : Char) : Option Nat :=
  if 0xE800 ≤ c.toNat && c.toNat < 0xF000 then some (c.toNat - 0x1000) else none

def privateUse : Surrogates where
  code? := privateCode?
  isSurrogate {c code} h := by
    rw [privateCode?] at h
    split at h
    · next hrange =>
      have hcode := Option.some.inj h
      simp only [Bool.and_eq_true, decide_eq_true_eq] at hrange
      omega
    · cases h
  ascii {c} h := by
    refine if_neg ?_
    simp only [Bool.and_eq_true, decide_eq_true_eq]
    omega

/-- The character that stands for a surrogate does. -/
theorem privateCode?_charOf {code : Nat} (hlow : 0xD800 ≤ code) (hhigh : code < 0xE000) :
    privateCode? (charOf code) = some code := by
  have hvalid : (code + 0x1000).isValidChar := .inr ⟨by omega, by omega⟩
  have hcode : (charOf code).toNat = code + 0x1000 := by
    rw [charOf, if_pos (by simp [hlow, hhigh]), Char.ofNat, dif_pos hvalid]
    rfl
  rw [privateCode?, hcode, if_pos (by simp; omega), Nat.add_sub_cancel]

end Surrogates

/-- Surrogates that cannot be encoded, from a first to a last position, and the code of the first. -/
structure EncodeFault where
  first : Nat
  last : Nat
  code : Nat
deriving DecidableEq

def EncodeFault.message (f : EncodeFault) : String :=
  let place :=
    if f.first == f.last then
      "character '\\u" ++ String.ofList (hex 4 f.code) ++ s!"' in position {f.first}"
    else s!"characters in position {f.first}-{f.last}"
  "'utf-8' codec can't encode " ++ place ++ ": surrogates not allowed"

namespace Surrogates

/-- The first surrogates in a row that keep characters from being encoded, where some of them pass. -/
def faultFrom (s : Surrogates) (passes : Nat → Bool) :
    (position : Nat) → List Char → Option EncodeFault
  | _, [] => none
  | position, c :: rest =>
    match s.code? c with
    | none => s.faultFrom passes (position + 1) rest
    | some code =>
      if passes code then s.faultFrom passes (position + 1) rest
      else some ⟨position, position + (rest.takeWhile fun c => (s.code? c).isSome).length, code⟩

/-- Whether a surrogate stands for a single byte, which the name of a file may have. -/
def isByte (code : Nat) : Bool := 0xDC80 ≤ code && code ≤ 0xDCFF

variable {s : Surrogates} {passes : Nat → Bool} {position : Nat} {cs : List Char}

/-- Characters are encoded when the surrogates among them pass. -/
theorem faultFrom_eq_none : s.faultFrom passes position cs = none ↔
    ∀ c ∈ cs, ∀ code, s.code? c = some code → passes code = true := by
  induction cs generalizing position with
  | nil => simp [faultFrom]
  | cons c rest ih =>
    rw [faultFrom, List.forall_mem_cons]
    cases hc : s.code? c with
    | none => simp [ih]
    | some code =>
      cases hpasses : passes code with
      | true => simp [ih, hpasses]
      | false => simp [hpasses]

end Surrogates

end SchemaCompiler.Text
