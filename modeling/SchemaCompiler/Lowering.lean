import SchemaCompiler.Declaration
import SchemaCompiler.Diagnostic
import SchemaCompiler.Log
import SchemaCompiler.Naming
import SchemaCompiler.Text.Blank

/-!
Lowering turns raw schema nodes into declarations. A node with `enum` is an enum, one with `$ref` a
reference; then its `type` decides. Malformed parts are dropped or degraded, and every such step
leaves a diagnostic. Lowering itself fails when a node contains itself, when nodes nest deeper than
a limit, when a container stands where a type is looked up, or when a number is too long to be
shown.
-/
namespace SchemaCompiler

/-- Why lowering stopped. -/
inductive LoweringError where
  | selfContained (path : String)
  | tooDeep (limit : Int) (path : String)
  | unhashableType (kindName : String)
  | numberTooLong
deriving DecidableEq

def LoweringError.message : LoweringError → String
  | .selfContained path => s!"{path}: inline schema contains itself"
  | .tooDeep limit path => s!"{path}: schema nesting exceeds maximum depth of {limit}"
  | .unhashableType kind => s!"unhashable type: '{kind}'"
  | .numberTooLong =>
    s!"Exceeds the limit ({Decimal.mostDigits} digits) for integer string conversion; " ++
    "use sys.set_int_max_str_digits() to increase the limit"

/-- An outcome with the diagnostics that were made on the way to it, also to an error. -/
structure Traced (α : Type) where
  outcome : Except LoweringError α
  diagnostics : List Diagnostic

namespace Traced

def pure (a : α) : Traced α := ⟨.ok a, []⟩

def fail (e : LoweringError) : Traced α := ⟨.error e, []⟩

def bind (t : Traced α) (f : α → Traced β) : Traced β :=
  match t.outcome with
  | .error e => ⟨.error e, t.diagnostics⟩
  | .ok a =>
    let next := f a
    ⟨next.outcome, t.diagnostics ++ next.diagnostics⟩

instance : Monad Traced where
  pure := pure
  bind := bind

/-- Leaves diagnostics. -/
def notes (ds : List Diagnostic) : Traced Unit := ⟨.ok (), ds⟩

/-- Leaves the diagnostic of a finding. -/
def note (f : Finding) (path : String) : Traced Unit := notes [f.atPath path]

/-- A text that values may be too long for. -/
def ofText : Option String → Traced String
  | some s => pure s
  | none => fail .numberTooLong

/-- What `f` keeps of each element, from left to right. -/
def collect (f : α → Traced (Option β)) : List α → Traced (List β)
  | [] => pure []
  | a :: rest => do
    let b ← f a
    let bs ← collect f rest
    return b.toList ++ bs

end Traced

namespace Lowering

/-- The nesting of schemas that is allowed unless the caller says otherwise. -/
def defaultLimit : Int := 64

/-- The name of the property or schema that a node describes, and the path of the node. -/
structure Site where
  name : String
  path : String

def Site.property (s : Site) (name : String) : Site := ⟨name, s!"{s.path}.properties.{name}"⟩

def Site.items (s : Site) : Site := ⟨s.name ++ "Item", s!"{s.path}.items"⟩

def description (h : Heap) (node : Address) : String :=
  match h.find? node "description" with
  | some (.scalar (.str s)) => Text.trim s
  | _ => ""

def isNullable (h : Heap) (node : Address) : Bool :=
  h.find? node "nullable" == some (.scalar (.bool true))

/-- The texts of a list, in order. Each other value leaves a diagnostic at its place. -/
def textEntries (h : Heap) (finding : String → Finding) (path : String) (list : Address) :
    Traced (List String) :=
  Traced.collect entry (h.items list).zipIdx
where
  entry : Value × Nat → Traced (Option String)
    | (.scalar (.str s), _) => return some s
    | (v, i) => do
      Traced.note (finding (← Traced.ofText (h.shown? v))) s!"{path}[{i}]"
      return none

/-- The members of an enum node. -/
def members (h : Heap) (node : Address) (path : String) : Traced (List String) :=
  match (h.find? node "enum").getD .null with
  | .list a => textEntries h .memberNotText s!"{path}.enum" a
  | v => do
    Traced.note (.enumNotList v.kindName) s!"{path}.enum"
    return []

/-- The names that an object node requires. -/
def required (h : Heap) (node : Address) (path : String) : Traced (List String) :=
  match (h.find? node "required").getD .null with
  | .scalar .null => pure []
  | .list a => textEntries h .requiredNotName s!"{path}.required" a
  | v => do
    Traced.note (.requiredNotList v.kindName) s!"{path}.required"
    return []

/-- The entries of the properties of an object node, sorted by the text of their keys. -/
def properties (h : Heap) (node : Address) (site : Site) : Traced (List (String × Value)) :=
  match (h.find? node "properties").getD .null with
  | .scalar .null => pure []
  | .map a => do
    let named ← Traced.collect (fun (k, v) => do
      return some (← Traced.ofText k.text?, v)) (h.entries a)
    return named.mergeSort (·.1 ≤ ·.1)
  | v => do
    Traced.note (.propertiesNotMapping site.name v.kindName) s!"{site.path}.properties"
    return []

/-- The field of one property, whose shape `visit` finds; none when it is no mapping. -/
def field (h : Heap) (visit : Address → Site → Traced Shape) (owner : Site)
    (required : List String) : String × Value → Traced (Option Field)
  | (name, .map node) => do
    let shape ← visit node (owner.property name)
    return some ⟨name, shape, description h node, isNullable h node, required.contains name⟩
  | (name, v) => do
    Traced.note (.propertyNotMapping name v.kindName) (owner.property name).path
    return none

/-- The declaration of an object node. -/
def objectDeclaration (h : Heap) (visit : Address → Site → Traced Shape) (node : Address)
    (site : Site) : Traced Declaration := do
  let required ← required h node site.path
  let properties ← properties h node site
  let fields ← Traced.collect (field h visit site required) properties
  return .object site.name (description h node) fields required

/-- The shape of a node whose `type` is neither an object nor an array. -/
def primitive (h : Heap) (node : Address) (site : Site) : Value → Traced Shape
  | .list _ => .fail (.unhashableType "list")
  | .map _ => .fail (.unhashableType "dict")
  | .scalar (.str name) =>
    if Shape.scalarNames.contains name then
      let format := match h.find? node "format" with
        | some (.scalar (.str format)) => format
        | _ => ""
      return .primitive name format
    else do
      Traced.note (.unrecognizedType (Text.quoted name)) site.path
      return .primitive (if name == "" then Shape.unknownName else name) ""
  | v => do
    Traced.note (.unrecognizedType (← Traced.ofText (h.shown? v))) site.path
    return .unknown

/-- The shape of the items of an array node. -/
def element (h : Heap) (visit : Address → Site → Traced Shape) (node : Address) (site : Site) :
    Traced Shape :=
  match h.find? node "items" with
  | some (.map items) => visit items site.items
  | _ => do
    Traced.note .itemsNotMapping site.items.path
    return .unknown

/-- The shape of a node, given how the nodes below it are visited. -/
def shapeOf (h : Heap) (visit : Address → Site → Traced Shape) (node : Address) (site : Site) :
    Traced Shape :=
  let type := (h.find? node "type").getD .null
  match h.find? node "enum", h.find? node "$ref" with
  | some _, _ => do
    let underlying := type.text?.getD "string"
    return .enum (Naming.enumName site.name) underlying (← members h node site.path)
  | none, some (.scalar (.str pointer)) =>
    if pointer == "" then invalidReference (.str pointer)
    else return .reference (Naming.lastSegment pointer)
  | none, some v => invalidReference v
  | none, none =>
    if type == .str "object" then
      return .object none (some (← objectDeclaration h visit node site))
    else if type == .str "array" then
      return .array (← element h visit node site)
    else primitive h node site type
where
  invalidReference (v : Value) : Traced Shape := do
    Traced.note (.invalidReference (← Traced.ofText (h.shown? v))) s!"{site.path}.$ref"
    return .unknown

/-- The shape of a node below the nodes `outer`, with room for `room` more levels. -/
def shape (h : Heap) (limit : Int) :
    (room : Nat) → (outer : List Address) → Address → Site → Traced Shape
  | 0, outer, node, site =>
    .fail (if outer.contains node then .selfContained site.path else .tooDeep limit site.path)
  | room + 1, outer, node, site =>
    if outer.contains node then .fail (.selfContained site.path)
    else shapeOf h (shape h limit room (node :: outer)) node site

/-- The declaration of a schema node: an enum, or an object of its properties whatever its type. -/
def declarationOf (h : Heap) (visit : Address → Site → Traced Shape) (node : Address)
    (site : Site) : Traced Declaration :=
  match h.find? node "enum" with
  | some _ => return .enum site.name (description h node) (← members h node site.path)
  | none => do
    let type := (h.find? node "type").getD .null
    if type != .str "object" && (h.find? node "properties").isNone then
      let shown ← Traced.ofText (h.shown? type)
      Traced.note (.unsupportedSchema site.name shown) site.path
    objectDeclaration h visit node site

/-- The declaration of one schema. -/
def declaration (h : Heap) (limit : Int) (node : Address) (site : Site) : Traced Declaration :=
  match limit.toNat with
  | 0 => .fail (.tooDeep limit site.path)
  | room + 1 => declarationOf h (shape h limit room [node]) node site

/-- The declaration of an entry of the schemas mapping; none when it is no mapping. -/
def entry (h : Heap) (limit : Int) : Scalar × Value → Traced (Option Declaration)
  | (key, v) => do
    let name ← Traced.ofText key.text?
    match v with
    | .map node => return some (← declaration h limit node ⟨name, schemaPath name⟩)
    | v => do
      Traced.note (.schemaNotMapping name v.kindName) (schemaPath name)
      return none

/-- The declarations of all schemas, in document order. -/
def schemas (h : Heap) (limit : Int) (entries : Entries) : Traced (List Declaration) :=
  Traced.collect (entry h limit) entries

/-- What the log says when all schemas went through. -/
def walkedLine (schemas declarations : Nat) : LogLine :=
  ⟨.debug, s!"walked {schemas} schemas into {declarations} DTOs"⟩

end Lowering
end SchemaCompiler
