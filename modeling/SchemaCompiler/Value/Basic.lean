import SchemaCompiler.Calendar
import SchemaCompiler.Decimal.Shortest

/-!
Raw document values. Lists, mappings and sets live in a heap and are referred to by address, so
that a document can mention one container in several places and a container can hold itself.
-/
namespace SchemaCompiler

/-- A value without parts; these are the values that can be keys. -/
inductive Scalar where
  | null
  | bool (b : Bool)
  | int (n : Int)
  | float (x : Float)
  | str (s : String)
  | date (d : Date)
  | time (t : DateTime)
  | bytes (b : List UInt8)
deriving DecidableEq

/-- The number that a value counts as when keys are compared, for whole numbers only. -/
def Scalar.wholeNumber? : Scalar → Option Int
  | .bool b => some (if b then 1 else 0)
  | .int n => some n
  | .float x => Decimal.whole? x
  | _ => none

/-- Whether two values are the same key: `1`, `1.0` and `true` are. -/
def Scalar.sameKey (a b : Scalar) : Bool :=
  match a, b with
  | .null, .null => true
  | .str s, .str t => s == t
  | .date d, .date e => d == e
  | .time t, .time u => t.same u
  | .bytes s, .bytes t => s == t
  | .float x, .float y => x == y
  | a, b =>
    match a.wholeNumber?, b.wholeNumber? with
    | some m, some n => m == n
    | _, _ => false

abbrev Address := Nat

inductive Value where
  | scalar (s : Scalar)
  | list (address : Address)
  | map (address : Address)
  | set (address : Address)
  | pair (address : Address)
deriving DecidableEq

namespace Value

abbrev null : Value := .scalar .null
abbrev str (s : String) : Value := .scalar (.str s)

/-- The text that a value is. -/
def text? : Value → Option String
  | .scalar (.str s) => some s
  | _ => none

end Value

/-- The entries of a mapping, in document order. -/
abbrev Entries := List (Scalar × Value)

/-- Adds an entry; one with the same key keeps its place and its key and takes the new value. -/
def Entries.insert (entries : Entries) (key : Scalar) (value : Value) : Entries :=
  match entries with
  | [] => [(key, value)]
  | (k, v) :: rest =>
    if k.sameKey key then (k, value) :: rest else (k, v) :: Entries.insert rest key value

def Entries.ofList (entries : List (Scalar × Value)) : Entries :=
  entries.foldl (fun es (k, v) => Entries.insert es k v) []

/-- The value under a text key. -/
def Entries.find? (entries : Entries) (key : String) : Option Value :=
  match entries with
  | [] => none
  | (.str k, v) :: rest => if k == key then some v else Entries.find? rest key
  | _ :: rest => Entries.find? rest key

theorem Entries.find?_cons (k : Scalar) (v : Value) (rest : Entries) (key : String) :
    Entries.find? ((k, v) :: rest) key =
      if k = .str key then some v else Entries.find? rest key := by
  cases k with
  | str name => by_cases hname : name = key <;> simp [find?, hname]
  | _ => simp [find?]

/-- The content of a container. -/
inductive Cell where
  | items (values : List Value)
  | entries (entries : Entries)
  | members (scalars : List Scalar)
deriving DecidableEq

/-- The containers of a document, by address. -/
structure Heap where
  cells : Array Cell
deriving DecidableEq

namespace Heap

def empty : Heap := ⟨#[]⟩

/-- Places a container at the next free address. -/
def add (h : Heap) (c : Cell) : Address × Heap := (h.cells.size, ⟨h.cells.push c⟩)

def set (h : Heap) (a : Address) (c : Cell) : Heap := ⟨h.cells.setIfInBounds a c⟩

def items (h : Heap) (a : Address) : List Value :=
  match h.cells[a]? with
  | some (.items values) => values
  | _ => []

def entries (h : Heap) (a : Address) : Entries :=
  match h.cells[a]? with
  | some (.entries entries) => entries
  | _ => []

def members (h : Heap) (a : Address) : List Scalar :=
  match h.cells[a]? with
  | some (.members scalars) => scalars
  | _ => []

/-- The value of a mapping under a text key. -/
def find? (h : Heap) (a : Address) (key : String) : Option Value := (h.entries a).find? key

end Heap

/-- A value with the heap that its addresses refer to. -/
structure Document where
  heap : Heap
  root : Value

end SchemaCompiler
