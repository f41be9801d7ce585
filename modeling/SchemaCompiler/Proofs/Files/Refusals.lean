import SchemaCompiler.Proofs.Files.Tree

/-!
Why operations on a file tree are refused. A path with a null character, or with a surrogate that stands for
no byte, leads nowhere, and the refusal does not name it. All other refusals have a cause and name a path.
-/
namespace SchemaCompiler

namespace Path

variable {c : Char}

theorem mem_intercalate {sep : String} (hsep : c ∉ sep.toList) (texts : List String) :
    c ∈ (sep.intercalate texts).toList ↔ ∃ text ∈ texts, c ∈ text.toList := by
  rw [String.toList_intercalate]
  induction texts with
  | nil => simp
  | cons text rest ih =>
    cases rest with
    | nil => simp
    | cons next others =>
      rw [List.map_cons, List.map_cons, List.intercalate_cons_cons, List.mem_append, List.mem_append,
        ← List.map_cons, ih]
      simp [hsep]

/-- A character comes into the text of a path with its root or with one of its parts, unless it is a slash
or a dot. -/
theorem mem_text (hslash : c ≠ '/') (hdot : c ≠ '.') (p : Path) :
    c ∈ p.text.toList ↔ c ∈ p.root.toList ∨ ∃ part ∈ p.parts, c ∈ part.toList := by
  have hjoined : c ∈ (p.root ++ "/".intercalate p.parts).toList ↔
      c ∈ p.root.toList ∨ ∃ part ∈ p.parts, c ∈ part.toList := by
    have hsep : c ∉ "/".toList := by simpa using hslash
    rw [String.toList_append, List.mem_append, mem_intercalate hsep]
  rw [← hjoined, text]
  by_cases hempty : p.root ++ "/".intercalate p.parts = ""
  · rw [hempty, if_pos (beq_self_eq_true _)]
    simpa using hdot
  · rw [if_neg (mt beq_iff_eq.mp hempty)]

end Path

namespace FileTree

variable {t t' : FileTree} {p : Path} {text : String} {e : FileError}

/-- Whether paths can have a character. -/
def Fits (t : FileTree) (c : Char) : Prop :=
  c ≠ '\x00' ∧ ∀ s ∈ t.surrogates, ∀ code, s.code? c = some code →
    Text.Surrogates.isByte code = true

theorem fits_of_ascii {c : Char} (hnull : c ≠ '\x00') (hc : c.toNat < 0x80) : t.Fits c := by
  refine ⟨hnull, fun s _ code hcode => ?_⟩
  rw [s.ascii hc] at hcode
  cases hcode

theorem bind_faultFrom_eq_none {passes : Nat → Bool} {position : Nat} {cs : List Char} :
    t.surrogates.bind (·.faultFrom passes position cs) = none ↔
      ∀ c ∈ cs, ∀ s ∈ t.surrogates, ∀ code, s.code? c = some code → passes code = true := by
  cases t.surrogates with
  | none => simp
  | some s => simp [Text.Surrogates.faultFrom_eq_none]

/-- Nothing is the matter with a path whose characters fit. -/
theorem pathFault?_eq_none : t.pathFault? p = none ↔ ∀ c ∈ p.text.toList, t.Fits c := by
  rw [pathFault?]
  cases hfault : t.surrogates.bind (·.faultFrom Text.Surrogates.isByte 0 p.text.toList) with
  | some f =>
    refine iff_of_false (Option.some_ne_none _) fun hfits => ?_
    rw [bind_faultFrom_eq_none.mpr fun c hc => (hfits c hc).2] at hfault
    cases hfault
  | none =>
    have hencodes := bind_faultFrom_eq_none.mp hfault
    dsimp only
    split
    · next hnull =>
      refine iff_of_false (Option.some_ne_none _) fun hfits => ?_
      exact (hfits _ (List.contains_iff_mem.mp hnull)).1 rfl
    · next hnull =>
      refine iff_of_true rfl fun c hc => ⟨?_, hencodes c hc⟩
      rintro rfl
      exact hnull (List.contains_iff_mem.mpr hc)

/-- A path has the characters of its root and its parts, and some that fit always. -/
theorem fits_text_iff : (∀ c ∈ p.text.toList, t.Fits c) ↔
    (∀ c ∈ p.root.toList, t.Fits c) ∧ ∀ part ∈ p.parts, ∀ c ∈ part.toList, t.Fits c := by
  have hmem : ∀ c, ¬ t.Fits c →
      (c ∈ p.text.toList ↔ c ∈ p.root.toList ∨ ∃ part ∈ p.parts, c ∈ part.toList) := by
    intro c hc
    refine Path.mem_text ?_ ?_ p
    · rintro rfl
      exact hc (fits_of_ascii (by decide) (by decide))
    · rintro rfl
      exact hc (fits_of_ascii (by decide) (by decide))
  constructor
  · intro h
    refine ⟨fun c hc => ?_, fun part hpart c hc => ?_⟩
    · exact Classical.byContradiction fun hunfit =>
        hunfit (h c ((hmem c hunfit).mpr (.inl hc)))
    · exact Classical.byContradiction fun hunfit =>
        hunfit (h c ((hmem c hunfit).mpr (.inr ⟨part, hpart, hc⟩)))
  · rintro ⟨hroot, hparts⟩ c hc
    refine Classical.byContradiction fun hunfit => ?_
    rcases (hmem c hunfit).mp hc with hc | ⟨part, hpart, hc⟩
    · exact hunfit (hroot c hc)
    · exact hunfit (hparts part hpart c hc)

theorem pathFault?_parent (h : t.pathFault? p = none) : t.pathFault? p.parent = none := by
  rw [pathFault?_eq_none, fits_text_iff] at h ⊢
  exact ⟨h.1, fun part hpart => h.2 part ((List.dropLast_sublist p.parts).subset hpart)⟩

theorem pathFault?_inside {folder : Path} {name : String} (h : t.pathFault? folder = none)
    (hname : ∀ c ∈ name.toList, t.Fits c) :
    t.pathFault? ⟨folder.root, folder.parts ++ [name]⟩ = none := by
  rw [pathFault?_eq_none, fits_text_iff] at h ⊢
  refine ⟨h.1, fun part hpart => ?_⟩
  rcases List.mem_append.mp hpart with hpart | hpart
  · exact h.2 part hpart
  · rwa [List.mem_singleton.mp hpart]

/-- What an operation on a path is refused for. -/
inductive RefusedAt (t : FileTree) (p : Path) : FileError → Prop
  | unfit (e : FileError) (hunfit : t.pathFault? p = some e) : RefusedAt t p e
  | cause (cause : PathCause) (hfit : t.pathFault? p = none) : RefusedAt t p (.refused cause p.text)

theorem refusedAt_locate (h : t.locate p = .error e) : t.RefusedAt p e := by
  rw [locate] at h
  split at h
  · next hunfit =>
    cases h
    exact .unfit e hunfit
  · next hfit =>
    split at h
    · cases h
      exact .cause .nameTooLong hfit
    · split at h
      · cases h
      · cases h
        exact .cause _ hfit

theorem write_of_unlocated (h : t.locate p = .error e) (text : String) :
    t.write p text = (t, .error e) := by
  rw [write, h]

theorem locate_of_long (hfit : t.pathFault? p = none) (hlong : pathLimit < p.text.utf8ByteSize) :
    t.locate p = .error (.refused .nameTooLong p.text) := by
  rw [locate, hfit]
  exact if_pos hlong

theorem walk_append (t : FileTree) (l : Location) (names more : List String) :
    t.walk l (names ++ more) = t.walk l names >>= fun m => t.walk m more := by
  induction names generalizing l with
  | nil => rfl
  | cons name rest ih =>
    rw [List.cons_append, walk, walk]
    split
    · rfl
    · rfl
    · split
      · rfl
      · exact ih _

/-- A short name is found its way to inside a folder that is there, unless the whole path is too long. -/
theorem locate_inside {folder : Path} {name : String} (hfind : t.find folder = .ok .folder)
    (hfits : ∀ c ∈ name.toList, t.Fits c) (hname : name.utf8ByteSize ≤ nameLimit)
    (hp : p = ⟨folder.root, folder.parts ++ [name]⟩) (hshort : p.text.utf8ByteSize ≤ pathLimit) :
    t.locate p = .ok p.location := by
  obtain ⟨hlocate, hentry⟩ := find_eq_ok.mp hfind
  obtain ⟨hfolder, _, hwalk⟩ := locate_eq_ok.mp hlocate
  have hparts : p.parts = folder.parts ++ [name] := congrArg Path.parts hp
  have hlast : t.walk (.ofRoot p) p.parts = .ok (folder.location.step name) := by
    have hfront : t.walk (.ofRoot p) folder.parts = .ok folder.location := hp ▸ hwalk
    rw [hparts, walk_append, hfront]
    dsimp only [bind, Except.bind]
    rw [walk, hentry]
    exact if_neg (Nat.not_lt.mpr hname)
  have hfound : t.locate p = .ok (folder.location.step name) :=
    locate_eq_ok.mpr ⟨hp ▸ pathFault?_inside hfolder hfits, hshort, hlast⟩
  rw [hfound, ← eq_of_locate hfound]

/-- What is at a path cannot be looked up when a name on the way, or the path, is too long. -/
theorem find?_eq_error : t.find? p = .error e ↔
    t.locate p = .error e ∧ e = .refused .nameTooLong p.text := by
  rw [find?, find]
  cases hl : t.locate p with
  | error cause =>
    cases refusedAt_locate hl with
    | unfit cause hunfit =>
      cases cause with
      | refused => exact absurd hunfit pathFault?_ne_refused
      | _ =>
        constructor
        · intro h
          cases h
        · rintro ⟨h, rfl⟩
          cases h
    | cause cause =>
      cases cause with
      | nameTooLong =>
        constructor
        · intro h
          cases h
          exact ⟨rfl, rfl⟩
        · rintro ⟨_, rfl⟩
          rfl
      | _ =>
        constructor
        · intro h
          cases h
        · rintro ⟨h, rfl⟩
          cases h
  | ok l =>
    dsimp only [bind, Except.bind]
    cases t.get? l with
    | none =>
      constructor
      · intro h
        cases h
      · rintro ⟨h, _⟩
        cases h
    | some entry =>
      constructor
      · intro h
        cases h
      · rintro ⟨h, _⟩
        cases h

theorem exists?_eq_error : t.exists? p = .error e ↔
    t.locate p = .error e ∧ e = .refused .nameTooLong p.text := by
  rw [← find?_eq_error, exists?]
  cases t.find? p with
  | error cause =>
    constructor
    · intro h
      cases h
      rfl
    · intro h
      cases h
      rfl
  | ok entry =>
    constructor
    · intro h
      cases h
    · intro h
      cases h

theorem refusedAt_makeFolder (h : t.makeFolder p = .error e) : t.RefusedAt p e := by
  rw [makeFolder] at h
  cases hl : t.locate p with
  | error cause =>
    rw [hl] at h
    cases h
    exact refusedAt_locate hl
  | ok l =>
    rw [hl] at h
    dsimp only [bind, Except.bind] at h
    split at h
    · cases h
      exact .cause .exists (locate_eq_ok.mp hl).1
    · cases h

theorem refusedAt_ensureFolder (h : t.ensureFolder p = .error e) : t.RefusedAt p e := by
  rw [ensureFolder] at h
  split at h
  · cases h
  · next hmake =>
    split at h
    · cases h
    · cases h
      exact refusedAt_makeFolder hmake
  · next hmake =>
    cases h
    exact refusedAt_makeFolder hmake

/-- Folders cannot be made for what is the matter with the path of the last one, or else for a cause at one
of the folders on the way. -/
theorem makeFolders_eq_error {room : Nat} (h : t.makeFolders p room = (t', .error e)) :
    t.pathFault? p = some e ∨ t.pathFault? p = none ∧ ∃ cause path, e = .refused cause path := by
  induction room generalizing t t' p with
  | zero => cases h
  | succ room ih =>
    rw [makeFolders] at h
    split at h
    · cases h
    · next hmissing =>
      have hfit : t.pathFault? p = none := by
        cases refusedAt_ensureFolder hmissing with
        | unfit _ hunfit => exact absurd hunfit pathFault?_ne_refused
        | cause _ hfit => exact hfit
      refine .inr ⟨hfit, ?_⟩
      split at h
      · cases h
        exact ⟨_, _, rfl⟩
      · split at h
        · next habove =>
          cases h
          rcases ih habove with hunfit | ⟨_, hcause⟩
          · rw [pathFault?_parent hfit] at hunfit
            cases hunfit
          · exact hcause
        · next habove =>
          split at h
          · cases h
          · next hensure =>
            cases h
            have hmade : WritesAt (fun _ => True) t t' := by
              have hwrites := writesAt_makeFolders (P := fun _ => True) t p.parent room
              rwa [habove] at hwrites
            cases refusedAt_ensureFolder hensure with
            | unfit _ hunfit =>
              rw [pathFault?_congr hmade.surrogates, hfit] at hunfit
              cases hunfit
            | cause cause _ => exact ⟨cause, _, rfl⟩
    · next hensure =>
      cases h
      cases refusedAt_ensureFolder hensure with
      | unfit _ hunfit => exact .inl hunfit
      | cause cause hfit => exact .inr ⟨hfit, cause, _, rfl⟩

theorem ensureFolders_eq_error (h : (t.ensureFolders p).2 = .error e) :
    t.pathFault? p = some e ∨ t.pathFault? p = none ∧ ∃ cause path, e = .refused cause path :=
  makeFolders_eq_error (Prod.ext rfl h : t.makeFolders p (p.parts.length + 1) = (_, .error e))

end FileTree
end SchemaCompiler
