import SchemaCompiler.Lowering

/-!
Lowering call by call. A visitor keeps the nodes that it is inside of and the diagnostics that its calls
left, so that it can be asked for one schema after the other. A call that fails keeps what it left on the
way, and the nodes that it was inside of are taken back.
-/
namespace SchemaCompiler

structure Visitor where
  /-- The nesting that is allowed. -/
  limit : Int
  /-- The nodes that are being visited, the innermost first. -/
  stack : List Address
  diagnostics : List Diagnostic

/-- Steps that change a visitor, also when they fail. -/
abbrev Visiting := ExceptT LoweringError (StateM Visitor)

namespace Visitor

open Lowering (Site description isNullable)

def fresh (limit : Int) : Visitor := ⟨limit, [], []⟩

/-- A step that visits no node adds its diagnostics to those of the visitor. -/
def leave (t : Traced α) : Visiting α := do
  modify fun w => { w with diagnostics := w.diagnostics ++ t.diagnostics }
  liftExcept t.outcome

instance : MonadLift Traced Visiting where
  monadLift := leave

/-- Visits a node unless it is being visited already or lies too deep. However the visit ends, the node is
taken from the stack again. -/
def enter (node : Address) (path : String) (visit : Visiting α) : Visiting α := do
  let w ← get
  if w.stack.contains node then throw (.selfContained path)
  else if w.limit ≤ w.stack.length then throw (.tooDeep w.limit path)
  else
    modify fun w => { w with stack := node :: w.stack }
    try visit finally modify fun w => { w with stack := w.stack.tail }

/-- The field of one property; none when it is no mapping. -/
def field (h : Heap) (visit : Address → Site → Visiting Shape) (owner : Site)
    (required : List String) : String × Value → Visiting (Option Field)
  | (name, .map node) => do
    let shape ← visit node (owner.property name)
    return some ⟨name, shape, description h node, isNullable h node, required.contains name⟩
  | (name, v) => do
    Traced.note (.propertyNotMapping name v.kindName) (owner.property name).path
    return none

def objectDeclaration (h : Heap) (visit : Address → Site → Visiting Shape) (node : Address)
    (site : Site) : Visiting Declaration := do
  let required ← Lowering.required h node site.path
  let properties ← Lowering.properties h node site
  let fields ← properties.filterMapM (field h visit site required)
  return .object site.name (description h node) fields required

def element (h : Heap) (visit : Address → Site → Visiting Shape) (node : Address) (site : Site) :
    Visiting Shape :=
  match h.find? node "items" with
  | some (.map items) => visit items site.items
  | _ => do
    Traced.note .itemsNotMapping site.items.path
    return .unknown

/-- The shape of a node, given how the nodes below it are visited. -/
def shapeOf (h : Heap) (visit : Address → Site → Visiting Shape) (node : Address) (site : Site) :
    Visiting Shape :=
  let type := (h.find? node "type").getD .null
  match h.find? node "enum", h.find? node "$ref" with
  | some _, _ => do
    let underlying := type.text?.getD "string"
    return .enum (Naming.enumName site.name) underlying (← Lowering.members h node site.path)
  | none, some (.scalar (.str pointer)) =>
    if pointer == "" then Lowering.shapeOf.invalidReference h site (.str pointer)
    else return .reference (Naming.lastSegment pointer)
  | none, some v => Lowering.shapeOf.invalidReference h site v
  | none, none =>
    if type == .str "object" then
      return .object none (some (← objectDeclaration h visit node site))
    else if type == .str "array" then
      return .array (← element h visit node site)
    else Lowering.primitive h node site type

/-- The shape of a node. With room for as many levels as the limit allows, the guard of `enter` refuses
before the room is used up. -/
def shape (h : Heap) : (room : Nat) → Address → Site → Visiting Shape
  | 0, node, site => enter node site.path do throw (.tooDeep (← get).limit site.path)
  | room + 1, node, site => enter node site.path (shapeOf h (shape h room) node site)

def declarationOf (h : Heap) (visit : Address → Site → Visiting Shape) (node : Address)
    (site : Site) : Visiting Declaration :=
  match h.find? node "enum" with
  | some _ =>
    return .enum site.name (description h node) (← Lowering.members h node site.path)
  | none => do
    let type := (h.find? node "type").getD .null
    if type != .str "object" && (h.find? node "properties").isNone then
      let shown ← Traced.ofText (h.shown? type)
      Traced.note (.unsupportedSchema site.name shown) site.path
    objectDeclaration h visit node site

/-- The declaration of one schema. -/
def declaration (h : Heap) (node : Address) (site : Site) : Visiting Declaration := do
  let w ← get
  enter node site.path (declarationOf h (shape h w.limit.toNat) node site)

/-- The declaration of an entry of the schemas mapping; none when it is no mapping. -/
def entry (h : Heap) : Scalar × Value → Visiting (Option Declaration)
  | (key, v) => do
    let name ← Traced.ofText key.text?
    match v with
    | .map node => return some (← declaration h node ⟨name, schemaPath name⟩)
    | v => do
      Traced.note (.schemaNotMapping name v.kindName) (schemaPath name)
      return none

/-- The declarations of all schemas, in document order. The visitor starts anew. -/
def schemas (h : Heap) (entries : Entries) : Visiting (List Declaration) := do
  modify fun w => { w with stack := [], diagnostics := [] }
  entries.filterMapM (entry h)

/-- What a visitor can be asked for. A schema without a path has that of its name. -/
inductive Call where
  | schemas (entries : Entries)
  | declaration (node : Address) (site : Site)
  | shape (node : Address) (site : Site)

/-- What a call gives. Schemas come with the diagnostics about them. -/
inductive Answer where
  | schemas (ds : List Declaration) (report : Report)
  | declaration (d : Declaration)
  | shape (s : Shape)

namespace Call

/-- Carries out a call. -/
def run (h : Heap) : Call → Visiting Answer
  | .schemas entries => do
    let ds ← Visitor.schemas h entries
    return .schemas ds ⟨(← get).diagnostics⟩
  | .declaration node site => do
    let path := if site.path == "" then schemaPath site.name else site.path
    return .declaration (← Visitor.declaration h node ⟨site.name, path⟩)
  | .shape node site => do
    let w ← get
    return .shape (← Visitor.shape h w.limit.toNat node site)

/-- How a call ends, and the visitor after it. -/
def on (h : Heap) (c : Call) (w : Visitor) : Except LoweringError Answer × Visitor :=
  (c.run h).run.run w

end Call

end Visitor
end SchemaCompiler
