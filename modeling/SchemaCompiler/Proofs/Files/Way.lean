import SchemaCompiler.Proofs.Files.Tree

/-!
The way of a path. What leads nowhere goes on leading nowhere, as long as no folder is made on its way
and nothing is written at its end.
-/
namespace SchemaCompiler

/-- The places that names pass from a place on, both ends with them. -/
def Location.way (l : Location) : List String → List Location
  | [] => [l]
  | name :: rest => l :: (l.step name).way rest

theorem Location.foldl_mem_way (l : Location) (names : List String) :
    names.foldl step l ∈ l.way names := by
  induction names generalizing l with
  | nil => exact List.mem_singleton_self l
  | cons name rest ih => exact List.mem_cons_of_mem _ (ih _)

/-- The places that a path passes, the one it leads to with them. -/
def Path.way (p : Path) : List Location := (Location.ofRoot p).way p.parts

theorem Path.location_mem_way (p : Path) : p.location ∈ p.way := Location.foldl_mem_way _ _

namespace FileTree

variable {t t' : FileTree} {l : Location} {names : List String} {p : Path} {P : Location → Prop}

/-- No folder comes to some places where nothing was. -/
def NoFolderAt (ls : List Location) (t t' : FileTree) : Prop :=
  ∀ l ∈ ls, t.get? l = none → t'.get? l ≠ some .folder

theorem WritesAt.isFile {content : ByteArray} (h : WritesAt P t t')
    (hl : t.get? l = some (.file content)) : ∃ content', t'.get? l = some (.file content') := by
  have hbecomes := h.becomes l
  rw [hl] at hbecomes
  generalize t'.get? l = e at hbecomes ⊢
  cases hbecomes with
  | same => exact ⟨content, rfl⟩
  | file _ content' => exact ⟨content', rfl⟩

/-- Names that lead nowhere go on leading nowhere, and no name on the way turns out too long. -/
theorem WritesAt.walk_error {cause : PathCause} (h : WritesAt P t t')
    (hway : NoFolderAt (l.way names) t t') (hwalk : t.walk l names = .error cause)
    (hcause : cause ≠ .nameTooLong) :
    ∃ cause', t'.walk l names = .error cause' ∧ cause' ≠ .nameTooLong := by
  induction names generalizing l with
  | nil => cases hwalk
  | cons name rest ih =>
    rw [FileTree.walk] at hwalk ⊢
    cases hl : t.get? l with
    | none =>
      have hfolder := hway l List.mem_cons_self hl
      cases hl' : t'.get? l with
      | none => exact ⟨.missing, rfl, by decide⟩
      | some e =>
        cases e with
        | folder => exact absurd hl' hfolder
        | file _ => exact ⟨.notFolder, rfl, by decide⟩
    | some e =>
      cases e with
      | file _ =>
        obtain ⟨_, hl'⟩ := h.isFile hl
        rw [hl']
        exact ⟨.notFolder, rfl, by decide⟩
      | folder =>
        rw [h.folder hl]
        rw [hl] at hwalk
        dsimp only at hwalk ⊢
        split at hwalk
        · cases hwalk
          exact absurd rfl hcause
        · next hshort =>
          rw [if_neg hshort]
          exact ih (fun m hm => hway m (List.mem_cons_of_mem _ hm)) hwalk

/-- Nothing is found at a path when its names lead to an empty place, or nowhere. The names of a path are
not followed when something is the matter with it. -/
theorem exists?_eq_false : t.exists? p = .ok false ↔
    (t.pathFault? p).isSome = true ∨
      p.text.utf8ByteSize ≤ pathLimit ∧
        match t.walk (.ofRoot p) p.parts with
        | .ok l => t.get? l = none
        | .error cause => cause ≠ .nameTooLong := by
  rw [exists?, find?, find, locate]
  cases hfault : t.pathFault? p with
  | some e =>
    cases e with
    | refused => exact absurd hfault pathFault?_ne_refused
    | _ => exact ⟨fun _ => .inl rfl, fun _ => rfl⟩
  | none =>
    rw [or_iff_right (by simp)]
    dsimp only
    by_cases hlong : p.text.utf8ByteSize > pathLimit
    · rw [if_pos hlong]
      refine ⟨fun h => ?_, fun h => absurd h.1 (Nat.not_le.mpr hlong)⟩
      cases h
    · rw [if_neg hlong, and_iff_right (Nat.not_lt.mp hlong)]
      cases hwalk : t.walk (.ofRoot p) p.parts with
      | ok l =>
        dsimp only [bind, Except.bind]
        cases t.get? l with
        | none => exact ⟨fun _ => rfl, fun _ => rfl⟩
        | some e =>
          constructor
          all_goals
            intro h
            cases h
      | error cause =>
        cases cause with
        | nameTooLong =>
          refine ⟨fun h => ?_, fun h => absurd rfl h⟩
          cases h
        | _ => exact ⟨fun _ => PathCause.noConfusion, fun _ => rfl⟩

/-- Where a path leads nowhere, nothing is found there later, unless a folder is made on its way or a file
is written at its end. -/
theorem WritesAt.exists?_false (h : WritesAt P t t') (hway : NoFolderAt p.way t t')
    (hplace : ¬ P p.location) (hmissing : t.exists? p = .ok false) : t'.exists? p = .ok false := by
  rw [exists?_eq_false] at hmissing ⊢
  rw [pathFault?_congr h.surrogates]
  rcases hmissing with hunfit | ⟨hshort, hmissing⟩
  · exact .inl hunfit
  refine .inr ⟨hshort, ?_⟩
  cases hwalk : t.walk (.ofRoot p) p.parts with
  | error cause =>
    rw [hwalk] at hmissing
    obtain ⟨cause', hwalk', hcause'⟩ := h.walk_error hway hwalk hmissing
    rw [hwalk']
    exact hcause'
  | ok l =>
    obtain rfl : l = p.location := eq_of_walk hwalk
    rw [hwalk] at hmissing
    rw [walk_of_folders (fun _ => h.folder) hwalk]
    have hbecomes := h.becomes p.location
    have hfolder := hway p.location p.location_mem_way hmissing
    dsimp only at hmissing ⊢
    rw [hmissing] at hbecomes
    generalize t'.get? p.location = e at hbecomes hfolder ⊢
    cases hbecomes with
    | same => rfl
    | folder => exact absurd rfl hfolder
    | file _ _ hwritten _ => exact absurd hwritten hplace

end FileTree
end SchemaCompiler
