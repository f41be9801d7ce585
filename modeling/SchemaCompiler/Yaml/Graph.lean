import SchemaCompiler.Yaml.Scalar

/-!
The graph of a document: nodes with their tags, in which aliases have become second references to
one node. A mapping may take over the entries of others; `flatten` carries that out.
-/
namespace SchemaCompiler.Yaml

abbrev NodeId := Nat

inductive Content where
  | scalar (text : String)
  | sequence (items : List NodeId)
  | mapping (entries : List (NodeId × NodeId))

structure Node where
  tag : String
  content : Content

structure Graph where
  nodes : Array Node

namespace Graph

def node? (g : Graph) (id : NodeId) : Option Node := g.nodes[id]?

def content? (g : Graph) (id : NodeId) : Option Content := (g.node? id).map (·.content)

def tag (g : Graph) (id : NodeId) : String := ((g.node? id).map (·.tag)).getD ""

def entries (g : Graph) (id : NodeId) : List (NodeId × NodeId) :=
  match g.content? id with
  | some (.mapping entries) => entries
  | _ => []

def set (g : Graph) (id : NodeId) (n : Node) : Graph := ⟨g.nodes.setIfInBounds id n⟩

/-- Marks a node as a text. -/
def setText (g : Graph) (id : NodeId) : Graph :=
  match g.node? id with
  | some n => g.set id { n with tag := coreTag "str" }
  | none => g

end Graph

/-- A graph that is being built, with the nodes of the anchors met so far. -/
structure Builder where
  graph : Graph
  anchors : List (String × NodeId)

abbrev Build (α : Type) := StateT Builder (Except Error) α

namespace Build

def add (n : Node) : Build NodeId := do
  let b ← get
  set { b with graph := ⟨b.graph.nodes.push n⟩ }
  return b.graph.nodes.size

def replace (id : NodeId) (n : Node) : Build Unit :=
  modify fun b => { b with graph := b.graph.set id n }

def setAnchor (p : Properties) (id : NodeId) : Build Unit :=
  match p.anchor with
  | some name => modify fun b => { b with anchors := (name, id) :: b.anchors }
  | none => pure ()

/-- The tag of a collection, `default` unless it has one of its own. -/
def collectionTag (p : Properties) (default : String) : String :=
  match p.tag with
  | none => coreTag default
  | some tag => if tag == "!" then coreTag default else tag

def scalarTag (p : Properties) (text : String) (plain : Bool) : String :=
  match p.tag with
  | none => if plain then plainTag text else coreTag "str"
  | some tag => if tag == "!" then plainTag text else tag

mutual

/-- Adds the nodes of a tree. The anchor of a collection is known inside it. -/
def tree : Tree → Build NodeId
  | .alias name => do
    match (← get).anchors.lookup name with
    | some id => return id
    | none => throw .malformed
  | .scalar p text plain => do
    let id ← add ⟨scalarTag p text plain, .scalar text⟩
    setAnchor p id
    return id
  | .sequence p items => do
    let tag := collectionTag p "seq"
    let id ← add ⟨tag, .sequence []⟩
    setAnchor p id
    replace id ⟨tag, .sequence (← trees items)⟩
    return id
  | .mapping p entries => do
    let tag := collectionTag p "map"
    let id ← add ⟨tag, .mapping []⟩
    setAnchor p id
    replace id ⟨tag, .mapping (← pairs entries)⟩
    return id

def trees : List Tree → Build (List NodeId)
  | [] => return []
  | t :: rest => do
    let id ← tree t
    return id :: (← trees rest)

def pairs : List (Tree × Tree) → Build (List (NodeId × NodeId))
  | [] => return []
  | (key, value) :: rest => do
    let k ← tree key
    let v ← tree value
    return (k, v) :: (← pairs rest)

end

end Build

namespace Graph

/-- The graph of a tree, and its root. -/
def ofTree (t : Tree) : Except Error (NodeId × Graph) :=
  match (Build.tree t).run ⟨⟨#[]⟩, []⟩ with
  | .ok (id, b) => .ok (id, b.graph)
  | .error e => .error e

def isMapping (g : Graph) (id : NodeId) : Bool :=
  match g.content? id with
  | some (.mapping _) => true
  | _ => false

/-- The mappings that a merge key refers to: one, or each of a sequence, the last one first. -/
def mergeSources (g : Graph) (value : NodeId) : Except Error (List NodeId) :=
  match g.content? value with
  | some (.mapping _) => .ok [value]
  | some (.sequence items) =>
    if items.all g.isMapping then .ok items.reverse else .error .malformed
  | _ => .error .malformed

def isMerge (g : Graph) (e : NodeId × NodeId) : Bool := g.tag e.1 == coreTag "merge"

def setEntries (g : Graph) (id : NodeId) (entries : List (NodeId × NodeId)) : Graph :=
  g.set id ⟨g.tag id, .mapping entries⟩

/-- Puts the entries that a mapping takes over in front of its own, so that its own win. Merge keys
are carried out one by one, and each is gone before the mappings that it refers to are flattened in
turn. `taken` holds what earlier merge keys took over, and `room` is the number of merge keys that
can still come. -/
def flatten : (room : Nat) → (taken : List (NodeId × NodeId)) → Graph → NodeId →
    Except Error Graph
  | 0, taken, g, id => .ok (g.setEntries id (taken ++ g.entries id))
  | room + 1, taken, g, id => do
    match (g.entries id).find? g.isMerge with
    | none =>
      let keys := ((g.entries id).map (·.1)).filter fun k => g.tag k == coreTag "value"
      return (keys.foldl setText g).setEntries id (taken ++ g.entries id)
    | some e =>
      let g := g.setEntries id ((g.entries id).erase e)
      let sources ← g.mergeSources e.2
      let g ← sources.reverse.foldlM (flatten room []) g
      flatten room (taken ++ sources.flatMap g.entries) g id

/-- The number of merge keys. -/
def mergeCount (g : Graph) : Nat :=
  g.nodes.foldl (fun count n => match n.content with
    | .mapping entries => count + entries.countP g.isMerge
    | _ => count) 0

end Graph
end SchemaCompiler.Yaml
