import SchemaCompiler.Config.Problem
import SchemaCompiler.Table

/-!
Decoding of raw values into typed ones. Decoding does not stop at a problem: the parts of a value
are decoded side by side, and all problems are kept in the order of the parts.
-/
namespace SchemaCompiler.Config

/-- A decoded value, or the problems that keep it from being one. -/
inductive Decoded (α : Type) where
  | value (a : α)
  | problems (first : Problem) (rest : List Problem)

namespace Decoded

def pure (a : α) : Decoded α := .value a

def fail (cause : Cause) : Decoded α := .problems ⟨[], cause⟩ []

/-- Both decodings; the problems of the first come first. -/
def seq (f : Decoded (α → β)) (x : Unit → Decoded α) : Decoded β :=
  match f, x () with
  | .value f, .value a => .value (f a)
  | .value _, .problems p ps => .problems p ps
  | .problems p ps, .value _ => .problems p ps
  | .problems p ps, .problems q qs => .problems p (ps ++ q :: qs)

instance : Applicative Decoded where
  pure := pure
  seq := seq

def map (f : α → β) : Decoded α → Decoded β
  | .value a => .value (f a)
  | .problems p ps => .problems p ps

/-- The decoding of a part, with its problems located from the whole. -/
def within (step : Step) : Decoded α → Decoded α
  | .value a => .value a
  | .problems p ps => .problems (p.within step) (ps.map (·.within step))

/-- A decoding that is spoilt by further problems. -/
def spoil (d : Decoded α) (further : List Problem) : Decoded α :=
  match d, further with
  | .value a, [] => .value a
  | .value _, p :: ps => .problems p ps
  | .problems p ps, qs => .problems p (ps ++ qs)

/-- A further condition on a value. -/
def ensure (cause : Cause) (holds : α → Bool) : Decoded α → Decoded α
  | .value a => if holds a then .value a else fail cause
  | d => d

def toExcept : Decoded α → Except (List Problem) α
  | .value a => .ok a
  | .problems p ps => .error (p :: ps)

end Decoded

/-- A reader of raw values. -/
abbrev Decoder (α : Type) := Heap → Value → Decoded α

/-- Bytes that hold a text. -/
def bytesText? (bytes : List UInt8) : Option String := String.fromUTF8? ⟨bytes.toArray⟩

/-- Texts; bytes are read as text. -/
def text : Decoder String := fun _ v =>
  match v with
  | .scalar (.str s) => .value s
  | .scalar (.bytes b) =>
    match bytesText? b with
    | some s => .value s
    | none => .fail .notUnicode
  | _ => .fail .notText

def nonEmptyText : Decoder String := fun h v => (text h v).ensure .tooShort (· != "")

private def truthWords : List String := ["1", "on", "t", "true", "y", "yes"]
private def falseWords : List String := ["0", "off", "f", "false", "n", "no"]

/-- The truth value that a word stands for, in any letter case. -/
def truthWord? (s : String) : Option Bool :=
  let word := s.map Char.toLower
  if truthWords.contains word then some true
  else if falseWords.contains word then some false
  else none

/-- Truth values; the numbers zero and one and some words are read as such. -/
def truth : Decoder Bool := fun _ v =>
  let read : Option Bool := match v with
    | .scalar (.bool b) => some b
    | .scalar (.int n) => if n == 0 then some false else if n == 1 then some true else none
    | .scalar (.float x) => if x == 0 then some false else if x == 1 then some true else none
    | .scalar (.str s) => truthWord? s
    | .scalar (.bytes b) => (bytesText? b).bind truthWord?
    | _ => none
  match read with
  | some b => .value b
  | none => .fail .notBool

/-- Nothing, or what `d` reads. -/
def orNull (d : Decoder α) : Decoder (Option α) := fun h v =>
  match v with
  | .scalar .null => .value none
  | v => some <$> d h v

/-- The first of some spellings of a field that a mapping has, with its value. -/
def spelled? (entries : Entries) : List String → Option (String × Value)
  | [] => none
  | spelling :: rest =>
    match entries.find? spelling with
    | some v => some (spelling, v)
    | none => spelled? entries rest

/-- A field that may be absent. -/
def optionalField (d : Decoder α) (default : α) (h : Heap) (entries : Entries)
    (spellings : List String) : Decoded α :=
  match spelled? entries spellings with
  | some (spelling, v) => (d h v).within (.name spelling)
  | none => .value default

/-- A field that must be there; a missing one is named by its first spelling. -/
def requiredField (d : Decoder α) (h : Heap) (entries : Entries) (spellings : List String) :
    Decoded α :=
  match spelled? entries spellings with
  | some (spelling, v) => (d h v).within (.name spelling)
  | none => (Decoded.fail .missing).within (.name (spellings.headD ""))

/-- The problems of the entries that no field has taken, given the spellings of all fields. -/
def leftovers (entries : Entries) (fields : List (List String)) : List Problem :=
  let taken := fields.filterMap fun spellings => (spelled? entries spellings).map (·.1)
  entries.filterMap fun (key, _) =>
    match key with
    | .str name => if taken.contains name then none else some ⟨[.name name], .notAllowed⟩
    | key => some ⟨[.ofKey key], .keyNotText⟩

/-- A mapping with known fields and no others. -/
def record (fields : List (List String)) (d : Heap → Entries → Decoded α) : Decoder α :=
  fun h v =>
    match v with
    | .map a => (d h (h.entries a)).spoil (leftovers (h.entries a) fields)
    | _ => .fail .notMapping

/-- One entry of a mapping with free keys. A bad key does not keep the value from being read. -/
def namedEntry (d : Decoder α) (h : Heap) (key : Scalar) (v : Value) : Decoded (String × α) :=
  let name := (text h (.scalar key)).within (.name "[key]")
  (Prod.mk <$> name <*> d h v).within (.ofKey key)

/-- All entries of a mapping with free keys. -/
def namedEntries (d : Decoder α) (h : Heap) : Entries → Decoded (List (String × α))
  | [] => .value []
  | (key, v) :: rest => List.cons <$> namedEntry d h key v <*> namedEntries d h rest

/-- A mapping from texts. Keys of different kinds can be one text: then the last one counts. -/
def table (d : Decoder α) : Decoder (Table α) := fun h v =>
  match v with
  | .map a =>
    (namedEntries d h (h.entries a)).map fun entries =>
      entries.foldl (fun t (name, a) => t.insert name a) .empty
  | _ => .fail .notMapping

end SchemaCompiler.Config
