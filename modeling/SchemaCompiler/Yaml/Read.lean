import SchemaCompiler.Yaml.Graph
import SchemaCompiler.Yaml.Lexer

/-!
Reading documents. Scalars are read where they are met; a container first gets its place in the
heap and is filled later, in the order in which containers were met, so that it can hold itself.
-/
namespace SchemaCompiler.Yaml

/-- How a container is filled. -/
inductive Filling where
  | list
  | map
  | set
  | pairs

structure Pending where
  node : NodeId
  address : Address
  filling : Filling

structure Reader where
  graph : Graph
  heap : Heap := .empty
  /-- The values of the nodes that have been met, by node. -/
  built : Array (Option Value)
  pending : List Pending := []
  /-- The number of merge keys that the graph had at first. -/
  merges : Nat

abbrev Read (α : Type) := StateT Reader (Except Error) α

namespace Read

def malformed : Read α := throw .malformed

def alloc (c : Cell) : Read Address := do
  let r ← get
  let (address, heap) := r.heap.add c
  set { r with heap }
  return address

def fill (a : Address) (c : Cell) : Read Unit :=
  modify fun r => { r with heap := r.heap.set a c }

/-- The text of a scalar. A mapping may give it under the key `=`. -/
def textOf (g : Graph) : (room : Nat) → NodeId → Except Error String
  | 0, _ => .error (.fault .endlessText)
  | room + 1, id =>
    match g.content? id with
    | some (.scalar text) => .ok text
    | some (.mapping entries) =>
      match entries.find? fun e => g.tag e.1 == coreTag "value" with
      | some e => textOf g room e.2
      | none => .error .malformed
    | _ => .error .malformed

def text (id : NodeId) : Read String := do
  let g := (← get).graph
  textOf g (g.nodes.size + 1) id

def orFault (result : Except Fault α) : Read α :=
  match result with
  | .ok a => return a
  | .error f => throw (.fault f)

/-- The value of a timestamp node, which has to hold its text itself. -/
def stamp (id : NodeId) : Read Scalar := do
  let s ← text id
  match (← get).graph.content? id with
  | some (.scalar _) => orFault (readStamp s)
  | _ => throw (.fault .timestampMapping)

/-- A container with nothing in it yet. -/
def container (id : NodeId) (filling : Filling) (c : Cell) (value : Address → Value) :
    Read Value := do
  let a ← alloc c
  modify fun r => { r with pending := r.pending ++ [⟨id, a, filling⟩] }
  return value a

/-- The value of a node by its tag. -/
def valueOf (id : NodeId) : Read Value := do
  let tag := (← get).graph.tag id
  if tag == coreTag "str" then return .str (← text id)
  else if tag == coreTag "null" then
    let _ ← text id
    return .null
  else if tag == coreTag "bool" then return .scalar (.bool (← orFault (readBool (← text id))))
  else if tag == coreTag "int" then return .scalar (.int (← orFault (readInt (← text id))))
  else if tag == coreTag "float" then return .scalar (.float (← orFault (readFloat (← text id))))
  else if tag == coreTag "timestamp" then return .scalar (← stamp id)
  else if tag == coreTag "binary" then
    match readBytes (← text id) with
    | some bytes => return .scalar (.bytes bytes)
    | none => malformed
  else if tag == coreTag "seq" then container id .list (.items []) .list
  else if tag == coreTag "map" then container id .map (.entries []) .map
  else if tag == coreTag "set" then container id .set (.members []) .set
  else if tag == coreTag "omap" then container id .pairs (.items []) .list
  else if tag == coreTag "pairs" then container id .pairs (.items []) .list
  else malformed

/-- The value of a node, the same one each time. -/
def value (id : NodeId) : Read Value := do
  match (← get).built[id]? with
  | some (some v) => return v
  | _ =>
    let v ← valueOf id
    modify fun r => { r with built := r.built.setIfInBounds id (some v) }
    return v

/-- An entry of a mapping with the node of its key. -/
structure KeyedEntry where
  node : NodeId
  key : Scalar
  value : Value

/-- Adds an entry; one with the same key keeps its place and its key and takes the new value. A key
is always the same as itself, also when it is not a number and so equals nothing. -/
def insertKeyed (e : KeyedEntry) : List KeyedEntry → List KeyedEntry
  | [] => [e]
  | f :: rest =>
    if f.node == e.node || f.key.sameKey e.key then { f with value := e.value } :: rest
    else f :: insertKeyed e rest

/-- The node that a key counts as. All keys that are written as the number that is none are one;
no node has their number. -/
def keyNode (g : Graph) (id : NodeId) : NodeId :=
  match textOf g (g.nodes.size + 1) id with
  | .ok text => if g.tag id == coreTag "float" && isNotANumber text then g.nodes.size else id
  | .error _ => id

/-- The entries of a mapping node. Keys have to be scalars. -/
def entriesOf (id : NodeId) : Read Entries := do
  let r ← get
  match r.graph.content? id with
  | some (.mapping _) =>
    match r.graph.flatten (r.merges + 1) [] id with
    | .error e => throw e
    | .ok graph =>
      set { r with graph }
      let entries ← (graph.entries id).mapM fun (k, v) => do
        match ← value k with
        | .scalar key => return ⟨keyNode graph k, key, ← value v⟩
        | _ => malformed
      return (entries.foldl (fun es e => insertKeyed e es) []).map fun e => (e.key, e.value)
  | _ => malformed

/-- One pair of a sequence of mappings with one entry each. -/
def pairOf (id : NodeId) : Read Value := do
  match (← get).graph.content? id with
  | some (.mapping [(k, v)]) =>
    let key ← value k
    let a ← alloc (.items [key, ← value v])
    return .pair a
  | _ => malformed

def itemsOf (id : NodeId) : Read (List NodeId) := do
  match (← get).graph.content? id with
  | some (.sequence items) => return items
  | _ => malformed

/-- Fills a container. -/
def complete (p : Pending) : Read Unit := do
  match p.filling with
  | .list => fill p.address (.items (← (← itemsOf p.node).mapM value))
  | .map => fill p.address (.entries (← entriesOf p.node))
  | .set => fill p.address (.members ((← entriesOf p.node).map (·.1)))
  | .pairs => fill p.address (.items (← (← itemsOf p.node).mapM pairOf))

/-- Fills all containers; each node is one container at most. -/
def completeAll : (room : Nat) → Read Unit
  | 0 => pure ()
  | room + 1 => do
    let r ← get
    match r.pending with
    | [] => pure ()
    | p :: rest =>
      set { r with pending := rest }
      complete p
      completeAll room

end Read

/-- The document that a text holds; a text without content holds nothing. -/
def read (text : String) : Except Error Document := do
  match ← Tree.ofTokens (tokens text) with
  | none => return ⟨.empty, .null⟩
  | some tree =>
    let (root, graph) ← Graph.ofTree tree
    let (v, r) ← (do
      let v ← Read.value root
      Read.completeAll (graph.nodes.size + 1)
      return v : Read Value).run {
        graph
        built := Array.replicate graph.nodes.size none
        merges := graph.mergeCount }
    return ⟨r.heap, v⟩

end SchemaCompiler.Yaml
