import Mathlib.Order.Defs.Unbundled
import SchemaCompiler.FileTree

/-!
What becomes of a file tree. Operations add folders and write files, and never is a folder lost, so a
path goes on leading where it led. What was written at a path is read there until it is written again.
-/
namespace SchemaCompiler.FileTree

variable {t t' t'' : FileTree} {l m : Location} {names : List String} {p : Path}
  {text : String} {content : ByteArray} {P : Location → Prop} {result : Except FileError Unit}

theorem exists_content {e : Option FileEntry} (h : e.any FileEntry.isFile = true) :
    ∃ content, e = some (.file content) := by
  cases e with
  | none => cases h
  | some e =>
    cases e with
    | folder => cases h
    | file content => exact ⟨content, rfl⟩

/-- What may become of a place: it stays as it is, a folder comes where nothing is, or a file comes
where no folder is. -/
inductive Becomes (written : Prop) : Option FileEntry → Option FileEntry → Prop
  | same (e : Option FileEntry) : Becomes written e e
  | folder : Becomes written none (some .folder)
  | file (e : Option FileEntry) (content : ByteArray) (hwritten : written)
      (hfolder : e ≠ some .folder) : Becomes written e (some (.file content))

theorem Becomes.trans {written : Prop} {e f g : Option FileEntry} (h₁ : Becomes written e f)
    (h₂ : Becomes written f g) : Becomes written e g := by
  cases h₁ with
  | same => exact h₂
  | folder =>
    cases h₂ with
    | same => exact .folder
    | file _ content hwritten hfolder => exact absurd rfl hfolder
  | file e content hwritten hfolder =>
    cases h₂ with
    | same => exact .file e content hwritten hfolder
    | file _ content _ _ => exact .file e content hwritten hfolder

theorem Becomes.mono {written written' : Prop} {e f : Option FileEntry}
    (himp : written → written') (h : Becomes written e f) : Becomes written' e f := by
  cases h with
  | same => exact .same _
  | folder => exact .folder
  | file e content hwritten hfolder => exact .file e content (himp hwritten) hfolder

/-- A tree comes from another one by new folders, and by files at some places. -/
structure WritesAt (P : Location → Prop) (t t' : FileTree) : Prop where
  surrogates : t'.surrogates = t.surrogates
  becomes : ∀ l, Becomes (P l) (t.get? l) (t'.get? l)

theorem WritesAt.refl (t : FileTree) : WritesAt P t t := ⟨rfl, fun _ => .same _⟩

theorem WritesAt.trans (h₁ : WritesAt P t t') (h₂ : WritesAt P t' t'') :
    WritesAt P t t'' :=
  ⟨h₂.surrogates.trans h₁.surrogates, fun l => (h₁.becomes l).trans (h₂.becomes l)⟩

theorem WritesAt.mono {Q : Location → Prop} (h : WritesAt P t t') (himp : ∀ l, P l → Q l) :
    WritesAt Q t t' := ⟨h.surrogates, fun l => (h.becomes l).mono (himp l)⟩

instance : IsPreorder FileTree (WritesAt P) where
  refl := .refl
  trans _ _ _ := .trans

theorem WritesAt.folder (h : WritesAt P t t') (hl : t.get? l = some .folder) :
    t'.get? l = some .folder := by
  have hbecomes := h.becomes l
  rw [hl] at hbecomes
  generalize t'.get? l = e at hbecomes ⊢
  cases hbecomes with
  | same => rfl
  | file _ _ _ hfolder => exact absurd rfl hfolder

theorem WritesAt.file (h : WritesAt P t t') (hl : t.get? l = some (.file content))
    (hplace : ¬ P l) : t'.get? l = some (.file content) := by
  have hbecomes := h.becomes l
  rw [hl] at hbecomes
  generalize t'.get? l = e at hbecomes ⊢
  cases hbecomes with
  | same => rfl
  | file _ _ hwritten _ => exact absurd hwritten hplace

theorem WritesAt.file_iff (h : WritesAt P t t') (hplace : ¬ P l) :
    t'.get? l = some (.file content) ↔ t.get? l = some (.file content) := by
  refine ⟨fun hl => ?_, fun hl => h.file hl hplace⟩
  have hbecomes := h.becomes l
  rw [hl] at hbecomes
  generalize t.get? l = e at hbecomes ⊢
  cases hbecomes with
  | same => rfl
  | file _ _ hwritten _ => exact absurd hwritten hplace

theorem WritesAt.entry {e : FileEntry} (h : WritesAt P t t') (hl : t.get? l = some e)
    (hplace : ¬ P l) : t'.get? l = some e := by
  cases e with
  | folder => exact h.folder hl
  | file content => exact h.file hl hplace

theorem eq_of_walk (h : t.walk l names = .ok m) : m = names.foldl Location.step l := by
  induction names generalizing l with
  | nil =>
    cases h
    rfl
  | cons name rest ih =>
    rw [walk] at h
    split at h
    · cases h
    · cases h
    · split at h
      · cases h
      · exact ih h

/-- Names lead where they led, as long as no folder is lost. -/
theorem walk_of_folders (h : ∀ l, t.get? l = some .folder → t'.get? l = some .folder)
    (hwalk : t.walk l names = .ok m) : t'.walk l names = .ok m := by
  induction names generalizing l with
  | nil => exact hwalk
  | cons name rest ih =>
    rw [walk] at hwalk ⊢
    split at hwalk
    · cases hwalk
    · cases hwalk
    · next hfolder =>
      rw [h l hfolder]
      split at hwalk
      · cases hwalk
      · next hshort => simpa only [if_neg hshort] using ih hwalk

theorem pathFault?_congr (h : t'.surrogates = t.surrogates) (p : Path) :
    t'.pathFault? p = t.pathFault? p := by
  rw [pathFault?, pathFault?, h]

theorem contentFault?_congr (h : t'.surrogates = t.surrogates) (text : String) :
    t'.contentFault? text = t.contentFault? text := by
  rw [contentFault?, contentFault?, h]

theorem pathFault?_ne_refused {cause : PathCause} {path : String} :
    t.pathFault? p ≠ some (.refused cause path) := by
  rw [pathFault?]
  split
  · exact nofun
  · split
    · exact nofun
    · exact nofun

/-- A path leads somewhere when nothing is the matter with it and its names do. -/
theorem locate_eq_ok : t.locate p = .ok l ↔ t.pathFault? p = none ∧
    p.text.utf8ByteSize ≤ pathLimit ∧ t.walk (.ofRoot p) p.parts = .ok l := by
  rw [locate, ← Nat.not_lt]
  cases t.pathFault? p with
  | some e => exact ⟨fun h => (nomatch h), fun h => (nomatch h.1)⟩
  | none =>
    dsimp only
    split
    · next hlong => exact ⟨fun h => (nomatch h), fun h => absurd hlong h.2.1⟩
    · next hshort =>
      cases t.walk (.ofRoot p) p.parts with
      | error cause => exact ⟨fun h => (nomatch h), fun h => (nomatch h.2.2)⟩
      | ok m => exact ⟨fun h => ⟨rfl, hshort, by cases h; rfl⟩, fun h => by cases h.2.2; rfl⟩

theorem walk_of_locate (h : t.locate p = .ok l) : t.walk (.ofRoot p) p.parts = .ok l :=
  (locate_eq_ok.mp h).2.2

/-- A path leads to its location or nowhere. -/
theorem eq_of_locate (h : t.locate p = .ok l) : l = p.location := eq_of_walk (walk_of_locate h)

theorem locate_of_folders (hsame : t'.surrogates = t.surrogates)
    (h : ∀ l, t.get? l = some .folder → t'.get? l = some .folder)
    (hlocate : t.locate p = .ok l) : t'.locate p = .ok l := by
  obtain ⟨hpath, hshort, hwalk⟩ := locate_eq_ok.mp hlocate
  exact locate_eq_ok.mpr
    ⟨(pathFault?_congr hsame p).trans hpath, hshort, walk_of_folders h hwalk⟩

theorem WritesAt.locate (h : WritesAt P t t') (hlocate : t.locate p = .ok l) :
    t'.locate p = .ok l :=
  locate_of_folders h.surrogates (fun _ => h.folder) hlocate

theorem find_eq_ok {e : FileEntry} : t.find p = .ok e ↔
    t.locate p = .ok p.location ∧ t.get? p.location = some e := by
  rw [find]
  cases hl : t.locate p with
  | error e => exact ⟨fun h => (nomatch h), fun h => (nomatch h.1)⟩
  | ok l =>
    obtain rfl := eq_of_locate hl
    dsimp only [bind, Except.bind]
    cases t.get? p.location with
    | none => exact ⟨fun h => (nomatch h), fun h => (nomatch h.2)⟩
    | some f => exact ⟨fun h => by cases h; exact ⟨rfl, rfl⟩, fun h => by cases h.2; rfl⟩

theorem exists?_of_locate (h : t.locate p = .ok p.location) :
    t.exists? p = .ok (t.get? p.location).isSome := by
  rw [exists?, find?]
  cases hentry : t.get? p.location with
  | some e =>
    rw [find_eq_ok.mpr ⟨h, hentry⟩]
    rfl
  | none =>
    have hfind : t.find p = .error (.refused .missing p.text) := by
      rw [find, h]
      dsimp only [bind, Except.bind]
      rw [hentry]
      rfl
    rw [hfind]
    rfl

theorem exists?_eq_true : t.exists? p = .ok true ↔
    t.locate p = .ok p.location ∧ (t.get? p.location).isSome := by
  refine ⟨fun h => ?_, fun ⟨hlocate, hentry⟩ => by rw [exists?_of_locate hlocate, hentry]⟩
  rw [exists?, find?] at h
  cases hfind : t.find p with
  | ok e =>
    obtain ⟨hlocate, hentry⟩ := find_eq_ok.mp hfind
    exact ⟨hlocate, Option.isSome_of_eq_some hentry⟩
  | error cause =>
    rw [hfind] at h
    cases cause with
    | nulCharacter | notEncodable _ => cases h
    | refused cause path => cases cause <;> cases h

theorem read_eq_ok : t.read p = .ok content ↔
    t.locate p = .ok p.location ∧ t.get? p.location = some (.file content) := by
  rw [← find_eq_ok, read]
  cases hfind : t.find p with
  | error e => exact ⟨fun h => (nomatch h), fun h => (nomatch h)⟩
  | ok e =>
    cases e with
    | folder => exact ⟨fun h => (nomatch h), fun h => (nomatch h)⟩
    | file old => exact ⟨fun h => by cases h; rfl, fun h => by cases h; rfl⟩

/-- What comes of the writing of a text at a path: it leads nowhere, or to a folder, or the file there
is emptied and then has the text, if that can be encoded. -/
inductive WriteEnds (t : FileTree) (p : Path) (text : String) :
    FileTree × Except FileError Unit → Prop
  | unlocated (e : FileError) (hlocate : t.locate p = .error e) : WriteEnds t p text (t, .error e)
  | folder (hlocate : t.locate p = .ok p.location) (hfolder : t.get? p.location = some .folder) :
      WriteEnds t p text (t, .error (.refused .isFolder p.text))
  | emptied (f : Text.EncodeFault) (hlocate : t.locate p = .ok p.location)
      (hfolder : t.get? p.location ≠ some .folder) (hfault : t.contentFault? text = some f) :
      WriteEnds t p text (t.insert p.location (.file .empty), .error (.notEncodable f))
  | stored (hlocate : t.locate p = .ok p.location) (hfolder : t.get? p.location ≠ some .folder)
      (hencodes : t.contentFault? text = none) :
      WriteEnds t p text (t.insert p.location (.file text.toUTF8), .ok ())

theorem writeEnds (t : FileTree) (p : Path) (text : String) :
    WriteEnds t p text (t.write p text) := by
  rw [write]
  cases hl : t.locate p with
  | error e => exact .unlocated e hl
  | ok l =>
    obtain rfl := eq_of_locate hl
    dsimp only
    split
    · next hfolder => exact .folder hl hfolder
    · next hfolder =>
      split
      · next f hfault => exact .emptied f hl hfolder hfault
      · next hencodes => exact .stored hl hfolder hencodes

/-- A text that can be encoded is written where a path leads, unless there is a folder. -/
theorem write_eq_ok : t.write p text = (t', .ok ()) ↔ t.locate p = .ok p.location ∧
    t.get? p.location ≠ some .folder ∧ t.contentFault? text = none ∧
    t' = t.insert p.location (.file text.toUTF8) := by
  constructor
  · intro h
    have hends := writeEnds t p text
    rw [h] at hends
    cases hends with
    | stored hlocate hfolder hencodes => exact ⟨hlocate, hfolder, hencodes, rfl⟩
  · rintro ⟨hlocate, hfolder, hencodes, rfl⟩
    rw [write, hlocate, hencodes]
    dsimp only
    split
    · next hthere => exact absurd hthere hfolder
    · rfl

theorem names_ne_nil (h : t.get? l ≠ some .folder) : l.names ≠ [] := by
  intro hnil
  rw [get?, hnil] at h
  exact h rfl

theorem get?_write (h : t.write p text = (t', .ok ())) (l : Location) :
    t'.get? l = if l = p.location then some (.file text.toUTF8) else t.get? l := by
  obtain ⟨_, hfolder, _, rfl⟩ := write_eq_ok.mp h
  exact get?_insert t (names_ne_nil hfolder) _ l

theorem writesAt_insert (hfolder : t.get? l ≠ some .folder) (content : ByteArray) (hplace : P l) :
    WritesAt P t (t.insert l (.file content)) := by
  refine ⟨rfl, fun m => ?_⟩
  rw [get?_insert t (names_ne_nil hfolder)]
  split
  · next heq => exact .file _ _ (heq ▸ hplace) (heq ▸ hfolder)
  · exact .same _

/-- However the writing at a path ends, nothing changes at other places. -/
theorem writesAt_write (h : t.write p text = (t', result)) (hplace : P p.location) :
    WritesAt P t t' := by
  have hends := writeEnds t p text
  rw [h] at hends
  cases hends with
  | unlocated | folder => exact .refl t
  | emptied _ _ hfolder _ => exact writesAt_insert hfolder _ hplace
  | stored _ hfolder _ => exact writesAt_insert hfolder _ hplace

/-- What was written is read back. -/
theorem read_write (h : t.write p text = (t', .ok ())) : t'.read p = .ok text.toUTF8 := by
  have hwrites : WritesAt (fun _ => True) t t' := writesAt_write h trivial
  refine read_eq_ok.mpr ⟨hwrites.locate (write_eq_ok.mp h).1, ?_⟩
  rw [get?_write h, if_pos rfl]

/-- What is found at a path stays there when files are written at other places. -/
theorem WritesAt.find {e : FileEntry} (h : WritesAt P t t') (hfind : t.find p = .ok e)
    (hplace : ¬ P p.location) : t'.find p = .ok e := by
  obtain ⟨hlocate, hentry⟩ := find_eq_ok.mp hfind
  exact find_eq_ok.mpr ⟨h.locate hlocate, h.entry hentry hplace⟩

/-- What is read at a path does not change by what is written at other places. -/
theorem WritesAt.read (h : WritesAt P t t') (hread : t.read p = .ok content)
    (hplace : ¬ P p.location) : t'.read p = .ok content := by
  obtain ⟨hlocate, hfile⟩ := read_eq_ok.mp hread
  exact read_eq_ok.mpr ⟨h.locate hlocate, h.file hfile hplace⟩

theorem writesAt_makeFolder (h : t.makeFolder p = .ok t') : WritesAt P t t' := by
  rw [makeFolder] at h
  cases hl : t.locate p with
  | error e =>
    rw [hl] at h
    cases h
  | ok l =>
    rw [hl] at h
    dsimp only [bind, Except.bind] at h
    split at h
    · cases h
    · next hnone =>
      cases h
      refine ⟨rfl, fun m => ?_⟩
      rw [get?_insert t (names_ne_nil (by rw [hnone]; exact nofun))]
      split
      · next heq => rw [heq, hnone]; exact .folder
      · exact .same _

theorem writesAt_ensureFolder (h : t.ensureFolder p = .ok t') : WritesAt P t t' := by
  rw [ensureFolder] at h
  split at h
  · next hmake =>
    cases h
    exact writesAt_makeFolder hmake
  · split at h
    · cases h
      exact .refl t
    · cases h
  · cases h

/-- Folders are created where nothing was, also when not all of them can be. -/
theorem writesAt_makeFolders (t : FileTree) (p : Path) (room : Nat) :
    WritesAt P t (t.makeFolders p room).1 := by
  induction room generalizing t p with
  | zero => exact .refl t
  | succ room ih =>
    rw [makeFolders]
    split
    · next hensure => exact writesAt_ensureFolder hensure
    · split
      · exact .refl t
      · -- What was made above stays, whether or not the folder itself can be made then.
        have habove := ih t p.parent
        split
        · next heq => rwa [heq] at habove
        · next heq =>
          rw [heq] at habove
          split
          · next hensure => exact habove.trans (writesAt_ensureFolder hensure)
          · exact habove
    · exact .refl t

theorem writesAt_ensureFolders (t : FileTree) (p : Path) :
    WritesAt P t (t.ensureFolders p).1 := writesAt_makeFolders t p _

theorem find_makeFolder (h : t.makeFolder p = .ok t') : t'.find p = .ok .folder := by
  have hwrites : WritesAt (fun _ => False) t t' := writesAt_makeFolder h
  rw [makeFolder] at h
  cases hl : t.locate p with
  | error e =>
    rw [hl] at h
    cases h
  | ok l =>
    obtain rfl := eq_of_locate hl
    rw [hl] at h
    dsimp only [bind, Except.bind] at h
    split at h
    · cases h
    · next hnone =>
      cases h
      refine find_eq_ok.mpr ⟨hwrites.locate hl, ?_⟩
      rw [get?_insert t (names_ne_nil (by rw [hnone]; exact nofun)), if_pos rfl]

theorem find_of_isFolder (h : t.isFolder p = true) : t.find p = .ok .folder := by
  rw [isFolder] at h
  split at h
  · assumption
  · cases h

theorem find_ensureFolder (h : t.ensureFolder p = .ok t') : t'.find p = .ok .folder := by
  rw [ensureFolder] at h
  split at h
  · next hmake =>
    cases h
    exact find_makeFolder hmake
  · split at h
    · next hold =>
      cases h
      exact find_of_isFolder ((Bool.and_eq_true _ _).mp hold).2
    · cases h
  · cases h

/-- A folder that is there is not made again. -/
theorem ensureFolder_of_find (h : t.find p = .ok .folder) : t.ensureFolder p = .ok t := by
  obtain ⟨hlocate, hentry⟩ := find_eq_ok.mp h
  have hmake : t.makeFolder p = .error (.refused .exists p.text) := by
    rw [makeFolder, hlocate]
    dsimp only [bind, Except.bind]
    rw [hentry]
    rfl
  rw [ensureFolder, hmake]
  dsimp only
  rw [isFolder, h]
  rfl

/-- A folder that could be made with those above it is there then. -/
theorem find_ensureFolders (h : t.ensureFolders p = (t', .ok ())) : t'.find p = .ok .folder := by
  rw [ensureFolders, makeFolders] at h
  split at h
  · next hensure =>
    cases h
    exact find_ensureFolder hensure
  · split at h
    · cases h
    · split at h
      · cases h
      · split at h
        · next hensure =>
          cases h
          exact find_ensureFolder hensure
        · cases h
  · cases h

theorem ensureFolders_of_find (h : t.find p = .ok .folder) : t.ensureFolders p = (t, .ok ()) := by
  rw [ensureFolders, makeFolders, ensureFolder_of_find h]

end SchemaCompiler.FileTree
