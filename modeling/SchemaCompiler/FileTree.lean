import SchemaCompiler.Path
import SchemaCompiler.Text.Surrogate

/-!
A tree of folders and files around a current folder, and the operations on it. Each operation
gives the tree after it or the reason for which it cannot be carried out. A file is opened before its
content is encoded, so what cannot be encoded leaves it empty.
-/
namespace SchemaCompiler

/-- Where the names of a location start: so many folders above the current one, or at the root. -/
inductive Base where
  | above (levels : Nat)
  | root
deriving DecidableEq

/-- A place in the tree, whether or not anything is there. -/
structure Location where
  base : Base
  names : List String
deriving DecidableEq

inductive FileEntry where
  | folder
  | file (content : ByteArray)

structure FileTree where
  entries : List (Location × FileEntry)
  /-- The characters of paths and contents that stand for surrogates, if any do. -/
  surrogates : Option Text.Surrogates := none

/-- Why an operation on a path cannot be carried out. -/
inductive PathCause where
  | missing
  | exists
  | notFolder
  | isFolder
  | nameTooLong
deriving DecidableEq

inductive FileError where
  | refused (cause : PathCause) (path : String)
  | nulCharacter
  /-- A path or a content that has no encoding. -/
  | notEncodable (f : Text.EncodeFault)
deriving DecidableEq

def PathCause.message : PathCause → String
  | .missing => "[Errno 2] No such file or directory"
  | .exists => "[Errno 17] File exists"
  | .notFolder => "[Errno 20] Not a directory"
  | .isFolder => "[Errno 21] Is a directory"
  | .nameTooLong => "[Errno 36] File name too long"

def FileError.message : FileError → String
  | .refused cause path => s!"{cause.message}: " ++ Text.quoted path
  | .nulCharacter => "embedded null byte"
  | .notEncodable f => f.message

namespace Location

def current : Location := ⟨.above 0, []⟩

def ofRoot (p : Path) : Location := if p.isAbsolute then ⟨.root, []⟩ else current

/-- The location that a name leads to; `..` leads up. -/
def step (l : Location) (name : String) : Location :=
  if name != ".." then ⟨l.base, l.names ++ [name]⟩
  else if !l.names.isEmpty then ⟨l.base, l.names.dropLast⟩
  else
    match l.base with
    | .above levels => ⟨.above (levels + 1), []⟩
    | .root => l

/-- The path that leads to a location. -/
def path (l : Location) : Path :=
  match l.base with
  | .root => ⟨"/", l.names⟩
  | .above levels => ⟨"", List.replicate levels ".." ++ l.names⟩

end Location

/-- The location that a path leads to. -/
def Path.location (p : Path) : Location := p.parts.foldl Location.step (.ofRoot p)

namespace FileTree

def empty : FileTree := { entries := [] }

/-- What is at a location. Folders above all names are always there. -/
def get? (t : FileTree) (l : Location) : Option FileEntry :=
  if l.names.isEmpty then some .folder else t.entries.lookup l

private def put (l : Location) (e : FileEntry) :
    List (Location × FileEntry) → List (Location × FileEntry)
  | [] => [(l, e)]
  | (m, f) :: rest => if m == l then (l, e) :: rest else (m, f) :: put l e rest

def insert (t : FileTree) (l : Location) (e : FileEntry) : FileTree :=
  { t with entries := put l e t.entries }

private theorem lookup_entry (l m : Location) (e : FileEntry)
    (entries : List (Location × FileEntry)) :
    ((l, e) :: entries).lookup m = if m = l then some e else entries.lookup m := by
  by_cases h : m = l
  · simp [h]
  · simp [List.lookup_cons, beq_false_of_ne h, h]

private theorem lookup_put (l m : Location) (e : FileEntry)
    (entries : List (Location × FileEntry)) :
    (put l e entries).lookup m = if m = l then some e else entries.lookup m := by
  induction entries with
  | nil => exact lookup_entry l m e []
  | cons entry rest ih =>
    obtain ⟨n, f⟩ := entry
    rw [put, lookup_entry]
    by_cases hn : n = l
    · subst hn
      rw [beq_self_eq_true, if_pos rfl, lookup_entry]
      split
      · rfl
      · rfl
    · rw [beq_false_of_ne hn, if_neg Bool.false_ne_true, lookup_entry, ih]
      by_cases hm : m = n
      · rw [if_pos hm, if_neg (hm ▸ hn), if_pos hm]
      · rw [if_neg hm, if_neg hm]

/-- Below all names an entry is found where it was put, and nothing else changes. -/
theorem get?_insert (t : FileTree) {l : Location} (hl : l.names ≠ []) (e : FileEntry)
    (m : Location) : (t.insert l e).get? m = if m = l then some e else t.get? m := by
  by_cases hm : m = l
  · subst hm
    simp [get?, insert, hl, lookup_put]
  · simp [get?, insert, hm, lookup_put]

private theorem put_put (l : Location) (e f : FileEntry) (entries : List (Location × FileEntry)) :
    put l f (put l e entries) = put l f entries := by
  induction entries with
  | nil => simp [put]
  | cons entry rest ih =>
    obtain ⟨n, g⟩ := entry
    rw [put, put]
    by_cases hn : (n == l) = true
    · rw [if_pos hn, put, if_pos (beq_self_eq_true l), if_pos hn]
    · rw [if_neg hn, put, if_neg hn, ih, if_neg hn]

private theorem put_comm {l m : Location} (hne : l ≠ m) (e f : FileEntry)
    {entries : List (Location × FileEntry)} (hl : l ∈ entries.map (·.1)) :
    put m f (put l e entries) = put l e (put m f entries) := by
  induction entries with
  | nil => cases hl
  | cons entry rest ih =>
    obtain ⟨n, g⟩ := entry
    have hlm : ¬ (l == m) = true := mt beq_iff_eq.mp hne
    have hml : ¬ (m == l) = true := mt beq_iff_eq.mp hne.symm
    rw [put, put]
    by_cases hn : n = l
    · subst hn
      rw [if_pos (beq_self_eq_true n), if_neg hlm, put, put, if_neg hlm, if_pos (beq_self_eq_true n)]
    · have hnl : ¬ (n == l) = true := mt beq_iff_eq.mp hn
      rw [if_neg hnl, put]
      by_cases hm : (n == m) = true
      · rw [if_pos hm, if_pos hm, put, if_neg hml]
      · have hrest : l ∈ rest.map (·.1) := (List.mem_cons.mp hl).resolve_left (Ne.symm hn)
        rw [if_neg hm, if_neg hm, put, if_neg hnl, ih hrest]

private theorem map_fst_put (l : Location) (e : FileEntry) (entries : List (Location × FileEntry)) :
    (put l e entries).map (·.1) =
      if l ∈ entries.map (·.1) then entries.map (·.1) else entries.map (·.1) ++ [l] := by
  induction entries with
  | nil => rfl
  | cons entry rest ih =>
    obtain ⟨n, g⟩ := entry
    rw [put]
    by_cases hn : n = l
    · subst hn
      simp
    · rw [if_neg (mt beq_iff_eq.mp hn), List.map_cons, ih]
      simp only [List.map_cons, List.mem_cons, Ne.symm hn, false_or]
      split <;> rfl

/-- The places with an entry of their own. -/
def places (t : FileTree) : List Location := t.entries.map (·.1)

/-- What comes last to a place stays. -/
theorem insert_insert (t : FileTree) (l : Location) (e f : FileEntry) :
    (t.insert l e).insert l f = t.insert l f :=
  congrArg (fun entries => { t with entries }) (put_put l e f t.entries)

/-- The order in which entries come to different places does not matter, unless both are new. -/
theorem insert_comm {t : FileTree} {l m : Location} (hne : l ≠ m) (hl : l ∈ t.places)
    (e f : FileEntry) : (t.insert l e).insert m f = (t.insert m f).insert l e :=
  congrArg (fun entries => { t with entries }) (put_comm hne e f hl)

theorem mem_places_insert {t : FileTree} {l m : Location} (e : FileEntry) :
    m ∈ (t.insert l e).places ↔ m = l ∨ m ∈ t.places := by
  rw [places, insert, map_fst_put]
  split
  · next hl =>
    refine ⟨.inr, fun h => h.elim (fun hm => hm ▸ hl) id⟩
  · rw [List.mem_append, List.mem_singleton, or_comm]
    rfl

/-- The most bytes that a name and a whole path may have. -/
def nameLimit : Nat := 255
def pathLimit : Nat := 4095

/-- Follows names from a location; all but the last one must be folders. -/
def walk (t : FileTree) (l : Location) : List String → Except PathCause Location
  | [] => .ok l
  | name :: rest =>
    match t.get? l with
    | none => .error .missing
    | some (.file _) => .error .notFolder
    | some .folder =>
      if name.utf8ByteSize > nameLimit then .error .nameTooLong
      else t.walk (l.step name) rest

/-- What keeps a path from leading anywhere, whatever is in the tree. -/
def pathFault? (t : FileTree) (p : Path) : Option FileError :=
  match t.surrogates.bind (·.faultFrom Text.Surrogates.isByte 0 p.text.toList) with
  | some f => some (.notEncodable f)
  | none => if p.text.toList.contains '\x00' then some .nulCharacter else none

/-- What keeps a content from being written, wherever it goes. -/
def contentFault? (t : FileTree) (content : String) : Option Text.EncodeFault :=
  t.surrogates.bind (·.faultFrom (fun _ => false) 0 content.toList)

/-- The location of a path whose folders are all there. -/
def locate (t : FileTree) (p : Path) : Except FileError Location :=
  match t.pathFault? p with
  | some e => .error e
  | none =>
    if p.text.utf8ByteSize > pathLimit then .error (.refused .nameTooLong p.text)
    else
      match t.walk (.ofRoot p) p.parts with
      | .ok l => .ok l
      | .error cause => .error (.refused cause p.text)

/-- What is at a path. -/
def find (t : FileTree) (p : Path) : Except FileError FileEntry := do
  match t.get? (← t.locate p) with
  | some e => return e
  | none => throw (.refused .missing p.text)

/-- What is at a path, nothing if the path leads nowhere. Only a name that is too long is
refused. -/
def find? (t : FileTree) (p : Path) : Except FileError (Option FileEntry) :=
  match t.find p with
  | .ok e => .ok (some e)
  | .error (.refused .nameTooLong path) => .error (.refused .nameTooLong path)
  | .error _ => .ok none

def exists? (t : FileTree) (p : Path) : Except FileError Bool := Option.isSome <$> t.find? p

def FileEntry.isFile : FileEntry → Bool
  | .file _ => true
  | .folder => false

def isFile? (t : FileTree) (p : Path) : Except FileError Bool :=
  (·.any FileEntry.isFile) <$> t.find? p

/-- Whether a path leads to a folder. -/
def isFolder (t : FileTree) (p : Path) : Bool :=
  match t.find p with
  | .ok .folder => true
  | _ => false

/-- The bytes of a file. -/
def read (t : FileTree) (p : Path) : Except FileError ByteArray := do
  match ← t.find p with
  | .file content => return content
  | .folder => throw (.refused .isFolder p.text)

/-- Creates a file or empties it, and then gives it its content. -/
def write (t : FileTree) (p : Path) (content : String) : FileTree × Except FileError Unit :=
  match t.locate p with
  | .error e => (t, .error e)
  | .ok l =>
    match t.get? l with
    | some .folder => (t, .error (.refused .isFolder p.text))
    | _ =>
      match t.contentFault? content with
      | some f => (t.insert l (.file .empty), .error (.notEncodable f))
      | none => (t.insert l (.file content.toUTF8), .ok ())

/-- Creates a folder where nothing is. -/
def makeFolder (t : FileTree) (p : Path) : Except FileError FileTree := do
  let l ← t.locate p
  match t.get? l with
  | some _ => throw (.refused .exists p.text)
  | none => return t.insert l .folder

/-- Creates a folder, unless there is one. -/
def ensureFolder (t : FileTree) (p : Path) : Except FileError FileTree :=
  match t.makeFolder p with
  | .ok t => .ok t
  | .error (.refused cause path) =>
    if cause != .missing && t.isFolder p then .ok t else .error (.refused cause path)
  | .error e => .error e

/-- Creates a folder and the folders above it. What was created stays when a folder cannot be. -/
def makeFolders (t : FileTree) (p : Path) : (room : Nat) → FileTree × Except FileError Unit
  | 0 => (t, .ok ())
  | room + 1 =>
    match t.ensureFolder p with
    | .ok t => (t, .ok ())
    | .error (.refused .missing path) =>
      if p.parts.isEmpty then (t, .error (.refused .missing path))
      else
        match t.makeFolders p.parent room with
        | (t, .error e) => (t, .error e)
        | (t, .ok ()) =>
          match t.ensureFolder p with
          | .ok t => (t, .ok ())
          | .error e => (t, .error e)
    | .error e => (t, .error e)

/-- Creates a folder and the folders above it, as far as they are missing. -/
def ensureFolders (t : FileTree) (p : Path) : FileTree × Except FileError Unit :=
  t.makeFolders p (p.parts.length + 1)

/-- Adds a file or folder with the folders above it, whatever was there. -/
def place (t : FileTree) (p : Path) (e : FileEntry) : FileTree :=
  let (t, _) := t.ensureFolders p.parent
  t.insert p.location e

/-- The files below the current folder, by their paths. -/
def files (t : FileTree) : List (String × ByteArray) :=
  t.entries.filterMap fun (l, e) =>
    match l.base, e with
    | .above 0, .file content => some ("/".intercalate l.names, content)
    | _, _ => none

/-- What a tree has and another one does not have at the same location. -/
def changes (before after : FileTree) : List (Location × FileEntry) :=
  after.entries.filter fun (l, e) =>
    match before.get? l, e with
    | some .folder, .folder => false
    | some (.file old), .file new => old != new
    | _, _ => true

/-- The files of a tree that another one does not have, or not with the same content. -/
def changed (before after : FileTree) : List (String × ByteArray) :=
  after.files.filter fun (path, content) => before.files.lookup path != some content

end FileTree
end SchemaCompiler
