import SchemaCompiler.Decimal.Read
import SchemaCompiler.Text.Quoted
import SchemaCompiler.Value.Basic

/-! How diagnostics show raw values: the name of a value's kind, its notation, its plain text. -/
namespace SchemaCompiler

def Scalar.kindName : Scalar → String
  | .null => "NoneType"
  | .bool _ => "bool"
  | .int _ => "int"
  | .float _ => "float"
  | .str _ => "str"
  | .date _ => "date"
  | .time _ => "datetime"
  | .bytes _ => "bytes"

def Value.kindName : Value → String
  | .scalar s => s.kindName
  | .list _ => "list"
  | .map _ => "dict"
  | .set _ => "set"
  | .pair _ => "tuple"

def boolText (b : Bool) : String := if b then "True" else "False"

/-- The notation of a value. Whole numbers with too many digits have none. -/
def Scalar.shown? : Scalar → Option String
  | .null => some "None"
  | .bool b => some (boolText b)
  | .int n => if Decimal.isShort n then some (toString n) else none
  | .float x => some (Decimal.text x)
  | .str s => some (Text.quoted s)
  | .date d => some d.shown
  | .time t => some t.shown
  | .bytes b => some (Text.quotedBytes b)

/-- The text of a key: like its notation, with texts and dates as they are. -/
def Scalar.text? : Scalar → Option String
  | .str s => some s
  | .date d => some d.text
  | .time t => some (t.text " ")
  | s => s.shown?

private def enclose (left : String) (right : String) (parts : List String) : String :=
  left ++ ", ".intercalate parts ++ right

/-- The notation of a value inside the containers `outer`. One of them met again is shown as dots,
so the nesting is never deeper than the heap is large; `room` is what is left of it. -/
def Heap.showIn? (h : Heap) : (room : Nat) → (outer : List Address) → Value → Option String
  | _, _, .scalar s => s.shown?
  | 0, _, _ => some "..."
  | room + 1, outer, .list a =>
    if outer.contains a then some "[...]"
    else enclose "[" "]" <$> (h.items a).mapM (h.showIn? room (a :: outer))
  | room + 1, outer, .map a =>
    if outer.contains a then some "\x7b...\x7d"
    else enclose "\x7b" "\x7d" <$> (h.entries a).mapM fun (k, v) => do
      return (← k.shown?) ++ ": " ++ (← h.showIn? room (a :: outer) v)
  | _ + 1, _, .set a =>
    if (h.members a).isEmpty then some "set()"
    else enclose "\x7b" "\x7d" <$> (h.members a).mapM Scalar.shown?
  | room + 1, outer, .pair a =>
    if outer.contains a then some "(...)"
    else enclose "(" ")" <$> (h.items a).mapM (h.showIn? room (a :: outer))

/-- The notation of a value, if all numbers in it have one. -/
def Heap.shown? (h : Heap) (v : Value) : Option String := h.showIn? (h.cells.size + 1) [] v

end SchemaCompiler
