import SchemaCompiler.Proofs.Lowering.Traced

/-!
The visits of a lowering run. A stand is a node with the nodes that it was reached through; what its
keys make of it decides which nodes are visited from it, and what a visit itself can fail at.
-/
namespace SchemaCompiler

namespace Value

/-- The address of a mapping. -/
def mapping? : Value → Option Address
  | .map a => some a
  | _ => none

theorem mapping?_eq_some {v : Value} {a : Address} : v.mapping? = some a ↔ v = .map a := by
  cases v <;> simp [mapping?]

/-- The kind of a value that cannot be looked up in a set. -/
def unhashable? : Value → Option String
  | .list _ => some "list"
  | .map _ => some "dict"
  | _ => none

end Value

namespace Lowering

variable {h : Heap} {node : Address}

/-- A node below the nodes `outer`, the nearest first. A schema has none above it. -/
structure Stand where
  node : Address
  outer : List Address
  site : Site

/-- What the keys of a node make of it. -/
inductive Way where
  | enum
  | reference (target : Value)
  | object
  | array
  | plain (type : Value)

/-- The type that a node gives itself. -/
def typeOf (h : Heap) (node : Address) : Value := (h.find? node "type").getD .null

/-- What the keys of a node below the schemas make of it. A reference comes before the type. -/
def wayOf (h : Heap) (node : Address) : Way :=
  match h.find? node "enum", h.find? node "$ref" with
  | some _, _ => .enum
  | none, some target => .reference target
  | none, none =>
    if typeOf h node == .str "object" then .object
    else if typeOf h node == .str "array" then .array
    else .plain (typeOf h node)

/-- A node that is no enum and no reference. -/
def IsTyped (h : Heap) (node : Address) : Prop :=
  h.find? node "enum" = none ∧ h.find? node "$ref" = none

theorem typeOf_eq_str {name : String} :
    typeOf h node = .str name ↔ h.find? node "type" = some (.str name) := by
  cases ht : h.find? node "type" <;> simp [typeOf, ht]

theorem wayOf_eq_enum : wayOf h node = .enum ↔ (h.find? node "enum").isSome := by
  fun_cases wayOf h node <;> simp_all

theorem wayOf_eq_reference {target : Value} : wayOf h node = .reference target ↔
    h.find? node "enum" = none ∧ h.find? node "$ref" = some target := by
  fun_cases wayOf h node <;> simp_all

theorem wayOf_eq_object : wayOf h node = .object ↔
    IsTyped h node ∧ h.find? node "type" = some (.str "object") := by
  rw [← typeOf_eq_str]
  fun_cases wayOf h node <;> simp_all [IsTyped]

theorem wayOf_eq_array : wayOf h node = .array ↔
    IsTyped h node ∧ h.find? node "type" = some (.str "array") := by
  rw [← typeOf_eq_str]
  fun_cases wayOf h node <;> simp_all [IsTyped]

theorem wayOf_eq_plain {type : Value} : wayOf h node = .plain type ↔
    IsTyped h node ∧ typeOf h node = type ∧ type ≠ .str "object" ∧ type ≠ .str "array" := by
  fun_cases wayOf h node <;> simp_all [IsTyped]
  rintro rfl
  exact ⟨by assumption, by assumption⟩

/-- The entries of the properties of a node, if these are a mapping. -/
def propertyEntries (h : Heap) (node : Address) : Entries :=
  match h.find? node "properties" with
  | some (.map a) => h.entries a
  | _ => []

/-- The properties of a node by the text of their keys, sorted; a key without a text is left out. -/
def namedProperties (h : Heap) (node : Address) : List (String × Value) :=
  ((propertyEntries h node).filterMap fun (k, v) => k.text?.map (·, v)).mergeSort (·.1 ≤ ·.1)

/-- Whether some value has no notation. -/
def anyUnwritable (h : Heap) (values : List Value) : Bool :=
  values.any fun v => (h.shown? v).isNone

/-- Whether some key has no text. -/
def anyUnnamed (keys : List Scalar) : Bool := keys.any fun k => k.text?.isNone

/-- The keys of the properties of a node. -/
def propertyKeys (h : Heap) (node : Address) : List Scalar := (propertyEntries h node).map (·.1)

/-- The elements of the list under a key. -/
def listed (h : Heap) (node : Address) (key : String) : List Value :=
  match h.find? node key with
  | some (.list a) => h.items a
  | _ => []

/-- The shape of a node that refers to another schema. -/
def referenceShape (h : Heap) (site : Site) (target : Value) : Traced Shape :=
  match target with
  | .scalar (.str pointer) =>
    if pointer == "" then shapeOf.invalidReference h site target
    else return .reference (Naming.lastSegment pointer)
  | target => shapeOf.invalidReference h site target

namespace Stand

def type (h : Heap) (s : Stand) : Value := typeOf h s.node

/-- What the keys of a node make of it. A schema is an enum or an object whatever else they say. -/
def way (h : Heap) (s : Stand) : Way :=
  if s.outer.isEmpty then
    match h.find? s.node "enum" with
    | some _ => .enum
    | none => .object
  else wayOf h s.node

/-- A node met from `s`. -/
def below (s : Stand) (node : Address) (site : Site) : Stand := ⟨node, s.node :: s.outer, site⟩

/-- The stand of a property, if its value is a mapping. -/
def property? (s : Stand) (name : String) (v : Value) : Option Stand :=
  v.mapping?.map fun node => s.below node (s.site.property name)

/-- The mappings among the properties of a node, in the order of their names. -/
def properties (h : Heap) (s : Stand) : List Stand :=
  (namedProperties h s.node).filterMap fun p => s.property? p.1 p.2

/-- The items of a node, if they are a mapping. -/
def items? (h : Heap) (s : Stand) : Option Stand :=
  ((h.find? s.node "items").bind Value.mapping?).map fun node => s.below node s.site.items

/-- The nodes visited from a node. -/
def children (h : Heap) (s : Stand) : List Stand :=
  match s.way h with
  | .object => s.properties h
  | .array => (s.items? h).toList
  | _ => []

/-- Whether a schema says neither that it is an object nor what properties it has. -/
def isUntyped (h : Heap) (s : Stand) : Bool :=
  s.outer.isEmpty && s.type h != .str "object" && (h.find? s.node "properties").isNone

/-- The raw values that the diagnostics about a node can show. -/
def shown (h : Heap) (s : Stand) : List Value :=
  match s.way h with
  | .enum => listed h s.node "enum"
  | .reference target => [target]
  | .object => (if s.isUntyped h then [s.type h] else []) ++ listed h s.node "required"
  | .array => []
  | .plain type => [type]

/-- The keys of the properties that a node is visited through. -/
def keys (h : Heap) (s : Stand) : List Scalar :=
  match s.way h with
  | .object => propertyKeys h s.node
  | _ => []

/-- Whether a number that is too long stands where a visit writes it out. -/
def isUnwritable (h : Heap) (s : Stand) : Bool :=
  anyUnwritable h (s.shown h) || anyUnnamed (s.keys h)

/-- The kind of a list or mapping that is looked up among the names of scalar types. -/
def unhashable? (h : Heap) (s : Stand) : Option String :=
  match s.way h with
  | .plain type => type.unhashable?
  | _ => none

/-- What a node makes its own visit fail at. -/
def fault? (h : Heap) (s : Stand) : Option LoweringError :=
  ((s.unhashable? h).map .unhashableType).or (Traced.tooLongIf (s.isUnwritable h))

theorem fault?_eq_none {s : Stand} :
    s.fault? h = none ↔ s.unhashable? h = none ∧ s.isUnwritable h = false := by
  rw [fault?, Option.or_eq_none_iff, Option.map_eq_none_iff, Traced.tooLongIf_eq_none]

/-- The visit of a stand. A schema counts as an object with its declaration in place. -/
def visit (h : Heap) (limit : Int) (s : Stand) : Traced Shape :=
  if s.outer.isEmpty then do
    return .object none (some (← declaration h limit s.node s.site))
  else shape h limit (limit.toNat - s.outer.length) s.outer s.node s.site

/-- One level of a visit, given how the nodes below are visited. -/
def level (h : Heap) (visit : Address → Site → Traced Shape) (s : Stand) : Traced Shape :=
  if s.outer.isEmpty then do
    return .object none (some (← declarationOf h visit s.node s.site))
  else shapeOf h visit s.node s.site

/-- A visit is one level of lowering, unless the node is met again or lies too deep. -/
theorem visit_eq (h : Heap) (limit : Int) (s : Stand) :
    s.visit h limit =
      if s.outer.contains s.node then .fail (.selfContained s.site.path)
      else if limit ≤ s.outer.length then .fail (.tooDeep limit s.site.path)
      else s.level h fun node site => (s.below node site).visit h limit := by
  obtain ⟨node, outer, site⟩ := s
  by_cases hl : limit ≤ outer.length
  · have hz : limit.toNat - outer.length = 0 := by omega
    cases outer with
    | nil =>
      have hz : limit.toNat = 0 := hz
      rw [if_pos hl]
      simp [visit, declaration, hz]
    | cons a outer =>
      rw [if_pos hl]
      simp only [visit, hz, shape, List.isEmpty_cons, Bool.false_eq_true, if_false]
      split <;> rfl
  · obtain ⟨room, hr⟩ : ∃ room, limit.toNat - outer.length = room + 1 :=
      ⟨limit.toNat - outer.length - 1, by omega⟩
    have hn : limit.toNat - (node :: outer).length = room := by
      rw [List.length_cons]
      omega
    rw [if_neg hl]
    cases outer with
    | nil =>
      have hr : limit.toNat = room + 1 := hr
      simp [visit, declaration, level, below, hr]
    | cons a outer =>
      simp only [visit, level, below, hr, hn, shape, List.isEmpty_cons, Bool.false_eq_true,
        if_false]

/-- The shape of an enum node with its members. -/
def enumShape (h : Heap) (s : Stand) (members : List String) : Shape :=
  if s.outer.isEmpty then
    .object none (some (.enum s.site.name (description h s.node) members))
  else .enum (Naming.enumName s.site.name) ((s.type h).text?.getD "string") members

/-- Notes that a schema is neither an object nor an enum. -/
def noteUntyped (h : Heap) (s : Stand) : Traced Unit := do
  if s.isUntyped h then
    let shown ← Traced.ofText (h.shown? (s.type h))
    Traced.note (.unsupportedSchema s.site.name shown) s.site.path

/-- What one level of a visit does, by what the keys of the node make of it. -/
theorem level_eq (h : Heap) (visit : Address → Site → Traced Shape) (s : Stand) :
    s.level h visit = match s.way h with
      | .enum => do return s.enumShape h (← members h s.node s.site.path)
      | .reference target => referenceShape h s.site target
      | .object => do
        s.noteUntyped h
        return .object none (some (← objectDeclaration h visit s.node s.site))
      | .array => do return .array (← element h visit s.node s.site)
      | .plain type => primitive h s.node s.site type := by
  obtain ⟨node, outer, site⟩ := s
  cases he : h.find? node "enum" with
  | some v =>
    cases outer <;>
      simp [level, way, wayOf, enumShape, declarationOf, shapeOf, type, typeOf, he]
  | none =>
    cases outer with
    | nil =>
      simp only [level, way, declarationOf, noteUntyped, isUntyped, type, typeOf, he,
        List.isEmpty_nil, if_true, Bool.true_and]
      split <;> simp
    | cons a outer =>
      cases hr : h.find? node "$ref" with
      | some target =>
        simp only [level, way, wayOf, shapeOf, referenceShape, he, hr, List.isEmpty_cons,
          Bool.false_eq_true, if_false]
        cases target with
        | scalar v => cases v <;> rfl
        | _ => rfl
      | none =>
        simp only [level, way, wayOf, shapeOf, noteUntyped, isUntyped, type, typeOf, he, hr,
          List.isEmpty_cons, Bool.false_eq_true, Bool.false_and, if_false]
        by_cases ho : (h.find? node "type").getD .null == .str "object"
        · simp only [ho, if_true, pure_bind]
        · by_cases ha : (h.find? node "type").getD .null == .str "array"
          · simp only [ho, ha, Bool.false_eq_true, if_false, if_true]
          · simp only [ho, ha, Bool.false_eq_true, if_false]

end Stand
end Lowering
end SchemaCompiler
