/-! Paths of files: names below the current folder or below a root. -/
namespace SchemaCompiler

structure Path where
  /-- Empty for a path below the current folder. -/
  root : String
  parts : List String
deriving DecidableEq

namespace Path

/-- The parts of a path as written, less empty ones and single dots. -/
def partsOf (s : String) : List String :=
  ((s.toList.splitOn '/').map String.ofList).filter fun part => part != "" && part != "."

/-- Two slashes in front, and no more, are a root of their own. -/
def rootOf (cs : List Char) : String :=
  match cs.takeWhile (· == '/') with
  | [] => ""
  | ['/', '/'] => "//"
  | _ => "/"

def ofString (s : String) : Path := ⟨rootOf s.toList, partsOf s⟩

def text (p : Path) : String :=
  let s := p.root ++ "/".intercalate p.parts
  if s == "" then "." else s

def isAbsolute (p : Path) : Bool := p.root != ""

/-- The path `q` seen from the folder `p`; an absolute one stands for itself. -/
def join (p q : Path) : Path := if q.isAbsolute then q else ⟨p.root, p.parts ++ q.parts⟩

def parent (p : Path) : Path := ⟨p.root, p.parts.dropLast⟩

/-- The last part. -/
def name (p : Path) : String := p.parts.getLastD ""

/-- The last dot of the name with what follows it, unless it comes first or last. -/
def extension (p : Path) : String :=
  let cs := p.name.toList
  let after := (cs.reverse.takeWhile (· != '.')).reverse
  if after.isEmpty || cs.length ≤ after.length + 1 then ""
  else String.ofList ('.' :: after)

/-- The path with each `..` carried out on the part before it. -/
def resolved (p : Path) : Path :=
  let go (parts : List String) (part : String) : List String :=
    if part != ".." then parts ++ [part]
    else if parts.isEmpty || parts.getLast? == some ".." then
      if p.isAbsolute then parts else parts ++ [".."]
    else parts.dropLast
  ⟨p.root, p.parts.foldl go []⟩

end Path
end SchemaCompiler
