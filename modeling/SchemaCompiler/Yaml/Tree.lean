import SchemaCompiler.Yaml.Token

/-!
The tree of a document as written: scalars, sequences and mappings with their tags and anchors, and
aliases that are not yet followed. Anything that may be left out is an empty plain scalar.
-/
namespace SchemaCompiler.Yaml

/-- What may be written before a node. -/
structure Properties where
  anchor : Option String := none
  tag : Option String := none

inductive Tree where
  | alias (name : String)
  | scalar (properties : Properties) (text : String) (plain : Bool)
  | sequence (properties : Properties) (items : List Tree)
  | mapping (properties : Properties) (entries : List (Tree × Tree))

/-- A scalar that is left out. -/
def Tree.empty : Tree := .scalar {} "" true

/-- The tokens that are left, and the anchors met so far. -/
structure Progress where
  tokens : List Token
  anchors : List String := []

abbrev Parse (α : Type) := StateT Progress (Except Error) α

namespace Parse

def tokens : Parse (List Token) := return (← get).tokens

/-- The next token. Where the text itself is broken, there is none to look at. -/
def peek : Parse (Option Token) := do
  match ← tokens with
  | .broken e :: _ => throw e
  | ts => return ts.head?

/-- Stops at a token that cannot stand here. -/
def unexpected : Parse α := do
  let _ ← peek
  throw .malformed

def drop : Parse Unit := modify fun p => { p with tokens := p.tokens.tail }

/-- Whether the next token is one of those wanted. -/
def ahead (wanted : Token → Bool) : Parse Bool := return (← peek).any wanted

/-- Drops the next token if it is one of those wanted. -/
def skip (wanted : Token → Bool) : Parse Bool := do
  let found ← ahead wanted
  if found then drop
  return found

def isKey : Token → Bool
  | .key => true
  | _ => false

def isValue : Token → Bool
  | .value => true
  | _ => false

def isBlockEntry : Token → Bool
  | .blockEntry => true
  | _ => false

def isBlockEnd : Token → Bool
  | .blockEnd => true
  | _ => false

def isFlowEntry : Token → Bool
  | .flowEntry => true
  | _ => false

def isSequenceEnd : Token → Bool
  | .flowSequenceEnd => true
  | _ => false

def isMappingEnd : Token → Bool
  | .flowMappingEnd => true
  | _ => false

def takeAnchor : Parse (Option String) := do
  match ← peek with
  | some (.anchor name) =>
    drop
    return some name
  | _ => return none

def takeTag : Parse (Option TagText) := do
  match ← peek with
  | some (.tag t) =>
    drop
    return some t
  | _ => return none

/-- A tag with its handle replaced by what the handle stands for. -/
def resolved (handles : List (String × String)) (t : TagText) : Parse String :=
  match t.handle with
  | none => return t.suffix
  | some handle =>
    match handles.lookup handle with
    | some target => return target ++ t.suffix
    | none => throw .malformed

/-- Anchor and tag in either order. -/
def properties (handles : List (String × String)) : Parse Properties := do
  match ← takeAnchor with
  | some anchor => return ⟨some anchor, ← (← takeTag).mapM (resolved handles)⟩
  | none =>
    match ← takeTag with
    | some tag =>
      let anchor ← takeAnchor
      return ⟨anchor, some (← resolved handles tag)⟩
    | none => return {}

/-- Remembers the anchor of a node. An anchor may be given once only. -/
def declare (p : Properties) : Parse Unit := do
  match p.anchor with
  | some name =>
    if (← get).anchors.contains name then throw .malformed
    modify fun s => { s with anchors := name :: s.anchors }
  | none => pure ()

/-- An alias has to be the name of an anchor before it. -/
def checkAlias (name : String) : Parse Unit := do
  if !(← get).anchors.contains name then throw .malformed

/-- Where a node stands: in a block, as the content of a mapping entry (where a sequence need not
be indented), or in brackets. -/
inductive Position where
  | block
  | entry
  | flow

mutual

/-- A node. No part of a node is nested deeper than there are tokens; `room` is what is left. -/
def node (handles : List (String × String)) (position : Position) : (room : Nat) → Parse Tree
  | 0 => throw .malformed
  | room + 1 => do
    match ← peek with
    | some (.alias name) =>
      drop
      checkAlias name
      return .alias name
    | _ =>
      let properties ← properties handles
      match position, ← peek with
      | .entry, some .blockEntry =>
        declare properties
        return .sequence properties (← looseItems handles room)
      | _, some (.scalar text plain) =>
        drop
        declare properties
        return .scalar properties text plain
      | _, some .flowSequenceStart =>
        drop
        declare properties
        return .sequence properties (← flowItems handles true room)
      | _, some .flowMappingStart =>
        drop
        declare properties
        return .mapping properties (← flowEntries handles true room)
      | .block, some .blockSequenceStart | .entry, some .blockSequenceStart =>
        drop
        declare properties
        return .sequence properties (← blockItems handles room)
      | .block, some .blockMappingStart | .entry, some .blockMappingStart =>
        drop
        declare properties
        return .mapping properties (← blockEntries handles room)
      | _, _ =>
        if properties.anchor.isSome || properties.tag.isSome then
          declare properties
          return .scalar properties "" true
        else unexpected

/-- The items of a block sequence. -/
def blockItems (handles : List (String × String)) : (room : Nat) → Parse (List Tree)
  | 0 => throw .malformed
  | room + 1 => do
    if ← skip isBlockEntry then
      let item ←
        if ← ahead fun t => isBlockEntry t || isBlockEnd t then pure .empty
        else node handles .block room
      return item :: (← blockItems handles room)
    else if ← skip isBlockEnd then return []
    else unexpected

/-- The items of a sequence that is not indented. -/
def looseItems (handles : List (String × String)) : (room : Nat) → Parse (List Tree)
  | 0 => throw .malformed
  | room + 1 => do
    if ← skip isBlockEntry then
      let item ←
        if ← ahead fun t => isBlockEntry t || isKey t || isValue t || isBlockEnd t then pure .empty
        else node handles .block room
      return item :: (← looseItems handles room)
    else return []

/-- What follows a key or value mark in a block mapping. -/
def entryPart (handles : List (String × String)) : (room : Nat) → Parse Tree
  | 0 => throw .malformed
  | room + 1 => do
    if ← ahead fun t => isKey t || isValue t || isBlockEnd t then return .empty
    else node handles .entry room

/-- The entries of a block mapping. Its key or its value may be left out. -/
def blockEntries (handles : List (String × String)) :
    (room : Nat) → Parse (List (Tree × Tree))
  | 0 => throw .malformed
  | room + 1 => do
    if ← skip isKey then
      let key ← entryPart handles room
      let value ← if ← skip isValue then entryPart handles room else pure .empty
      return (key, value) :: (← blockEntries handles room)
    else if ← skip isBlockEnd then return []
    else unexpected

/-- What follows a mark in brackets, up to a token that ends the part. -/
def flowPart (handles : List (String × String)) (ends : Token → Bool) : (room : Nat) → Parse Tree
  | 0 => throw .malformed
  | room + 1 => do
    if ← ahead ends then return .empty else node handles .flow room

/-- The items of a sequence in brackets. An item with a key mark is a mapping of one entry. -/
def flowItems (handles : List (String × String)) (first : Bool) :
    (room : Nat) → Parse (List Tree)
  | 0 => throw .malformed
  | room + 1 => do
    if ← skip isSequenceEnd then return []
    if !first then
      if !(← skip isFlowEntry) then unexpected
    if ← skip isKey then
      let key ← flowPart handles (fun t => isValue t || isFlowEntry t || isSequenceEnd t) room
      let value ←
        if ← skip isValue then
          flowPart handles (fun t => isFlowEntry t || isSequenceEnd t) room
        else pure .empty
      return .mapping {} [(key, value)] :: (← flowItems handles false room)
    else if ← skip isSequenceEnd then return []
    else
      let item ← node handles .flow room
      return item :: (← flowItems handles false room)

/-- The entries of a mapping in braces. Without a key mark there is only a key. -/
def flowEntries (handles : List (String × String)) (first : Bool) :
    (room : Nat) → Parse (List (Tree × Tree))
  | 0 => throw .malformed
  | room + 1 => do
    if ← skip isMappingEnd then return []
    if !first then
      if !(← skip isFlowEntry) then unexpected
    if ← skip isKey then
      let key ← flowPart handles (fun t => isValue t || isFlowEntry t || isMappingEnd t) room
      let value ←
        if ← skip isValue then
          flowPart handles (fun t => isFlowEntry t || isMappingEnd t) room
        else pure .empty
      return (key, value) :: (← flowEntries handles false room)
    else if ← skip isMappingEnd then return []
    else
      let key ← node handles .flow room
      return (key, .empty) :: (← flowEntries handles false room)

end

/-- The namespace of the tags that every document knows. -/
def coreTags : String := "tag:yaml.org,2002:"

def defaultHandles : List (String × String) := [("!", "!"), ("!!", coreTags)]

/-- The directives before a document: at most one version, and tag handles. -/
def directives (versioned : Bool) (handles : List (String × String)) :
    List Token → Except Error (List (String × String) × List Token)
  | .version major :: rest =>
    if versioned || major != 1 then .error .malformed else directives true handles rest
  | .tagHandle handle target :: rest =>
    if (handles.lookup handle).isSome then .error .malformed
    else directives versioned ((handle, target) :: handles) rest
  | .unknownDirective :: rest => directives versioned handles rest
  | rest => .ok (handles ++ defaultHandles, rest)

def isDirective : Token → Bool
  | .version _ | .tagHandle _ _ | .unknownDirective => true
  | _ => false

def isDocumentStart : Token → Bool
  | .documentStart => true
  | _ => false

def isDocumentEnd : Token → Bool
  | .documentEnd => true
  | _ => false

/-- The content of a document after its start mark. -/
def explicitContent (handles : List (String × String)) (room : Nat) : Parse Tree := do
  match ← peek with
  | none => return .empty
  | some t =>
    if isDirective t || isDocumentStart t || isDocumentEnd t then return .empty
    else node handles .block room

/-- The tag handles of the directives here. -/
def takeDirectives : Parse (List (String × String)) := do
  let (handles, rest) ← directives false [] (← tokens)
  modify fun p => { p with tokens := rest }
  return handles

/-- The only document of a stream, if there is one. -/
def stream : Parse (Option Tree) := do
  let room := 4 * (← tokens).length + 4
  match ← peek with
  | none => return none
  | some t =>
    let tree ←
      if isDirective t || isDocumentStart t then do
        let handles ← takeDirectives
        if !(← skip isDocumentStart) then unexpected
        explicitContent handles room
      else node defaultHandles .block room
    modify fun p => { p with tokens := p.tokens.dropWhile isDocumentEnd }
    match ← peek with
    | none => return some tree
    | some _ =>
      let _ ← takeDirectives
      unexpected

end Parse

/-- The tree of the only document in some tokens; none when there are no tokens. -/
def Tree.ofTokens (tokens : List Token) : Except Error (Option Tree) :=
  (·.1) <$> Parse.stream { tokens }

end SchemaCompiler.Yaml
