import SchemaCompiler.Proofs.Lowering.Stop

/-!
Lowering without a guard. The visited nodes unfold to a tree, in which a node that is shared stands
once for each way that leads to it. A tree is lowered by plain recursion on its structure.
-/
namespace SchemaCompiler.Lowering

mutual

/-- The nodes visited from a node on. -/
inductive Tree where
  | enum (node : Address)
  | reference (node : Address) (target : Value)
  | object (node : Address) (properties : Forest)
  | array (node : Address) (items : Tree)
  | bareArray (node : Address)
  | plain (node : Address) (type : Value)

/-- The properties of a node by name, with the trees of those that are mappings. -/
inductive Forest where
  | nil
  | schema (name : String) (tree : Tree) (rest : Forest)
  | other (name : String) (v : Value) (rest : Forest)

end

def Tree.node : Tree → Address
  | .enum node | .reference node _ | .object node _ | .array node _ | .bareArray node
  | .plain node _ => node

/-- The declaration of an object node, given how its fields are made from the names that it
requires. -/
def objectOf (h : Heap) (node : Address) (site : Site)
    (fields : List String → Traced (List Field)) : Traced Declaration := do
  let required ← required h node site.path
  let _ ← properties h node site
  return .object site.name (description h node) (← fields required) required

mutual

/-- The shape of the root of a tree. -/
def Tree.shape (h : Heap) : Tree → Site → Traced Shape
  | .enum node, site => do
    return .enum (Naming.enumName site.name) ((typeOf h node).text?.getD "string")
      (← members h node site.path)
  | .reference _ target, site => referenceShape h site target
  | .object node properties, site => do
    return .object none (some (← objectOf h node site (properties.fields h site)))
  | .array _ items, site => do return .array (← items.shape h site.items)
  | .bareArray _, site => do
    Traced.note .itemsNotMapping site.items.path
    return .array .unknown
  | .plain node type, site => primitive h node site type

/-- The fields that properties become. -/
def Forest.fields (h : Heap) (owner : Site) : Forest → List String → Traced (List Field)
  | .nil, _ => return []
  | .schema name tree rest, required => do
    let shape ← tree.shape h (owner.property name)
    let fields ← rest.fields h owner required
    return ⟨name, shape, description h tree.node, isNullable h tree.node,
      required.contains name⟩ :: fields
  | .other name v rest, required => do
    Traced.note (.propertyNotMapping name v.kindName) (owner.property name).path
    rest.fields h owner required

end

mutual

/-- The tree that a node below the schemas unfolds to. -/
inductive Unfolds (h : Heap) : Address → Tree → Prop
  | enum {node : Address} (hw : wayOf h node = .enum) : Unfolds h node (.enum node)
  | reference {node : Address} {target : Value} (hw : wayOf h node = .reference target) :
      Unfolds h node (.reference node target)
  | object {node : Address} {f : Forest} (hw : wayOf h node = .object)
      (hf : UnfoldsAll h (namedProperties h node) f) : Unfolds h node (.object node f)
  | array {node items : Address} {t : Tree} (hw : wayOf h node = .array)
      (hi : h.find? node "items" = some (.map items)) (ht : Unfolds h items t) :
      Unfolds h node (.array node t)
  | bareArray {node : Address} (hw : wayOf h node = .array)
      (hi : (h.find? node "items").bind Value.mapping? = none) : Unfolds h node (.bareArray node)
  | plain {node : Address} {type : Value} (hw : wayOf h node = .plain type) :
      Unfolds h node (.plain node type)

/-- The trees that named properties unfold to. -/
inductive UnfoldsAll (h : Heap) : List (String × Value) → Forest → Prop
  | nil : UnfoldsAll h [] .nil
  | schema {name : String} {node : Address} {rest : List (String × Value)} {t : Tree} {f : Forest}
      (ht : Unfolds h node t) (hf : UnfoldsAll h rest f) :
      UnfoldsAll h ((name, .map node) :: rest) (.schema name t f)
  | other {name : String} {v : Value} {rest : List (String × Value)} {f : Forest}
      (hv : v.mapping? = none) (hf : UnfoldsAll h rest f) :
      UnfoldsAll h ((name, v) :: rest) (.other name v f)

end

/-- The nodes visited from an entry of the schemas mapping on. -/
inductive Root where
  | enum (node : Address)
  | object (node : Address) (properties : Forest)
  | other (v : Value)

/-- The declaration of a root; none when it is no mapping. -/
def Root.declaration? (h : Heap) (name : String) : Root → Traced (Option Declaration)
  | .enum node => do
    return some (.enum name (description h node) (← members h node (schemaPath name)))
  | .object node properties => do
    (Stand.ofSchema name node).noteUntyped h
    let site := ⟨name, schemaPath name⟩
    return some (← objectOf h node site (properties.fields h site))
  | .other v => do
    Traced.note (.schemaNotMapping name v.kindName) (schemaPath name)
    return none

/-- The declarations of all schemas, by plain recursion over their trees. -/
def declarations (h : Heap) (roots : List (Scalar × Root)) : Traced (List Declaration) :=
  Traced.collect (fun (key, root) => do root.declaration? h (← Traced.ofText key.text?)) roots

/-- The root that an entry of the schemas mapping unfolds to. -/
inductive UnfoldsEntry (h : Heap) : Scalar × Value → Scalar × Root → Prop
  | enum {key : Scalar} {node : Address} (he : (h.find? node "enum").isSome) :
      UnfoldsEntry h (key, .map node) (key, .enum node)
  | object {key : Scalar} {node : Address} {f : Forest} (he : h.find? node "enum" = none)
      (hf : UnfoldsAll h (namedProperties h node) f) :
      UnfoldsEntry h (key, .map node) (key, .object node f)
  | other {key : Scalar} {v : Value} (hv : v.mapping? = none) :
      UnfoldsEntry h (key, v) (key, .other v)

end SchemaCompiler.Lowering
