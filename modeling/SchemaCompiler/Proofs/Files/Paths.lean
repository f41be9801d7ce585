import Mathlib.Data.String.Basic
import SchemaCompiler.FileTree

/-!
Where the names of files lead. A name is normal when none of the parts between its slashes is empty or a
single dot. Normal names are different paths below a folder, and lead to different places there if no
part is two dots. A name without a slash leads directly into the folder.
-/
namespace SchemaCompiler

/-- A place directly inside a folder. -/
def Location.IsIn (l folder : Location) : Prop :=
  ∃ name, l = ⟨folder.base, folder.names ++ [name]⟩

theorem Location.foldl_step {names : List String} (h : ".." ∉ names) (l : Location) :
    names.foldl step l = ⟨l.base, l.names ++ names⟩ := by
  induction names generalizing l with
  | nil => rw [List.append_nil]; rfl
  | cons name rest ih =>
    obtain ⟨hname, hrest⟩ := not_or.mp (mt List.mem_cons.mpr h)
    rw [List.foldl_cons, step, if_pos (bne_iff_ne.mpr (Ne.symm hname)), ih hrest,
      List.append_assoc, List.singleton_append]

namespace Path

variable {s s' : String} {folder : Path}

/-- The parts between the slashes of a name. -/
def segments (s : String) : List String := (s.toList.splitOn '/').map String.ofList

def IsNormal (s : String) : Prop := ∀ part ∈ segments s, part ≠ "" ∧ part ≠ "."

instance : DecidablePred IsNormal := fun s =>
  inferInstanceAs (Decidable (∀ part ∈ segments s, part ≠ "" ∧ part ≠ "."))

theorem segments_injective : Function.Injective segments := by
  intro s s' h
  have hsplit : s.toList.splitOn '/' = s'.toList.splitOn '/' :=
    List.map_injective_iff.mpr (fun _ _ => String.ofList_inj.mp) h
  have hjoined := congrArg ['/'].intercalate hsplit
  rw [List.intercalate_splitOn, List.intercalate_splitOn] at hjoined
  exact String.toList_inj.mp hjoined

theorem splitOn_of_no_slash {cs : List Char} (h : '/' ∉ cs) : cs.splitOn '/' = [cs] := by
  have hsplit : (['/'].intercalate [cs]).splitOn '/' = [cs] :=
    List.splitOn_intercalate '/' (by simpa using h) (List.cons_ne_nil _ _)
  rwa [List.intercalate_singleton] at hsplit

theorem segments_of_no_slash (h : '/' ∉ s.toList) : segments s = [s] := by
  rw [segments, splitOn_of_no_slash h, List.map_singleton, String.ofList_toList]

theorem rootOf_of_isNormal (h : IsNormal s) : rootOf s.toList = "" := by
  have hempty : [] ∉ s.toList.splitOn '/' := fun hmem =>
    (h _ (List.mem_map_of_mem hmem)).1 rfl
  cases hs : s.toList with
  | nil => rfl
  | cons c rest =>
    -- A slash in front would leave an empty part before it.
    have hc : (c == '/') = false := by
      by_contra hslash
      rw [hs, List.splitOn_cons_eq_if_modifyHead, if_pos (by simpa using hslash)] at hempty
      exact hempty List.mem_cons_self
    rw [rootOf, List.takeWhile_cons, hc]
    rfl

theorem ofString_of_isNormal (h : IsNormal s) : ofString s = ⟨"", segments s⟩ := by
  rw [ofString, rootOf_of_isNormal h, partsOf]
  congr 1
  refine List.filter_eq_self.mpr fun part hpart => ?_
  obtain ⟨hempty, hdot⟩ := h part hpart
  rw [bne_iff_ne.mpr hempty, bne_iff_ne.mpr hdot]
  rfl

/-- A normal name goes below the folder with all its parts. -/
theorem join_of_isNormal (h : IsNormal s) (folder : Path) :
    folder.join (.ofString s) = ⟨folder.root, folder.parts ++ segments s⟩ := by
  rw [ofString_of_isNormal h]
  rfl

theorem eq_of_join (h : IsNormal s) (h' : IsNormal s')
    (heq : folder.join (.ofString s) = folder.join (.ofString s')) : s = s' := by
  rw [join_of_isNormal h, join_of_isNormal h'] at heq
  exact segments_injective (List.append_cancel_left (congrArg parts heq))

theorem location_join (h : IsNormal s) (hup : ".." ∉ segments s) (folder : Path) :
    (folder.join (.ofString s)).location =
      ⟨folder.location.base, folder.location.names ++ segments s⟩ := by
  rw [join_of_isNormal h]
  change (folder.parts ++ segments s).foldl Location.step (.ofRoot folder) = _
  rw [List.foldl_append]
  exact Location.foldl_step hup _

theorem eq_of_location_join (h : IsNormal s) (h' : IsNormal s') (hup : ".." ∉ segments s)
    (hup' : ".." ∉ segments s')
    (heq : (folder.join (.ofString s)).location = (folder.join (.ofString s')).location) :
    s = s' := by
  rw [location_join h hup, location_join h' hup'] at heq
  exact segments_injective (List.append_cancel_left (congrArg Location.names heq))

/-- A name without slashes, and not as short as dots, leads directly into the folder. -/
theorem isIn_of_no_slash (h : '/' ∉ s.toList) (hlength : 2 < s.toList.length) (folder : Path) :
    (folder.join (.ofString s)).location.IsIn folder.location := by
  have hshort : s ≠ "" ∧ s ≠ "." ∧ s ≠ ".." := by
    refine ⟨?_, ?_, ?_⟩
    all_goals
      rintro rfl
      exact absurd hlength (by decide)
  obtain ⟨hempty, hdot, hup⟩ := hshort
  have hsegments := segments_of_no_slash h
  refine ⟨s, ?_⟩
  rw [location_join, hsegments]
  · rw [IsNormal, hsegments]
    exact List.forall_mem_singleton.mpr ⟨hempty, hdot⟩
  · rw [hsegments]
    exact fun hmem => hup (List.mem_singleton.mp hmem).symm

/-- An extension stays with the last part of a name. -/
theorem exists_splitOn_append {extension : List Char} (h : '/' ∉ extension) (cs : List Char) :
    ∃ front stem, (cs ++ extension).splitOn '/' = front ++ [stem ++ extension] := by
  induction cs with
  | nil => exact ⟨[], [], splitOn_of_no_slash h⟩
  | cons c cs ih =>
    obtain ⟨front, stem, hsplit⟩ := ih
    rw [List.cons_append, List.splitOn_cons_eq_if_modifyHead, hsplit]
    split
    · exact ⟨[] :: front, stem, rfl⟩
    · cases front with
      | nil => exact ⟨[], c :: stem, rfl⟩
      | cons first others => exact ⟨(c :: first) :: others, stem, rfl⟩

theorem exists_partsOf_append (base extension : String) (h : '/' ∉ extension.toList)
    (hlength : 2 < extension.toList.length) :
    ∃ front stem, partsOf (base ++ extension) = front ++ [stem ++ extension] := by
  obtain ⟨front, stem, hsplit⟩ := exists_splitOn_append h base.toList
  have hlast : String.ofList (stem ++ extension.toList) = .ofList stem ++ extension := by
    rw [String.ofList_append, String.ofList_toList]
  have hlong : 2 < (String.ofList stem ++ extension).toList.length := by
    rw [String.toList_append, List.length_append]
    omega
  have hkept : String.ofList stem ++ extension ≠ "" ∧ String.ofList stem ++ extension ≠ "." := by
    constructor
    all_goals
      intro heq
      rw [heq] at hlong
      exact absurd hlong (by decide)
  rw [partsOf, String.toList_append, hsplit, List.map_append, List.filter_append, List.map_singleton,
    hlast, List.filter_singleton, bne_iff_ne.mpr hkept.1, bne_iff_ne.mpr hkept.2]
  exact ⟨_, _, rfl⟩

theorem parts_join (p q : Path) : ∃ above, (p.join q).parts = above ++ q.parts := by
  rw [join]
  split
  · exact ⟨[], rfl⟩
  · exact ⟨p.parts, rfl⟩

/-- A name with an extension leads to a place whose last name has the extension. -/
theorem getLast?_location_join (base extension : String) (h : '/' ∉ extension.toList)
    (hlength : 2 < extension.toList.length) (folder : Path) :
    ∃ stem, (folder.join (.ofString (base ++ extension))).location.names.getLast? =
      some (stem ++ extension) := by
  obtain ⟨front, stem, hparts⟩ := exists_partsOf_append base extension h hlength
  obtain ⟨above, hjoined⟩ := parts_join folder (.ofString (base ++ extension))
  have hup : stem ++ extension ≠ ".." := by
    intro heq
    have hlengths := congrArg (·.toList.length) heq
    simp only [String.toList_append, List.length_append] at hlengths
    have htwo : "..".toList.length = 2 := by decide
    omega
  refine ⟨stem, ?_⟩
  change (ofString (base ++ extension)).parts = _ at hparts
  rw [location, hjoined, hparts, ← List.append_assoc, List.foldl_append, List.foldl_cons,
    List.foldl_nil, Location.step, if_pos (bne_iff_ne.mpr hup)]
  exact List.getLast?_concat

/-- No part of a path has a slash, as when the path is read from a text. -/
def IsSplit (p : Path) : Prop := ∀ part ∈ p.parts, '/' ∉ part.toList

theorem no_slash_of_mem_splitOn {cs part : List Char} (h : part ∈ cs.splitOn '/') : '/' ∉ part := by
  induction cs generalizing part with
  | nil =>
    obtain rfl : part = [] := by simpa using h
    exact List.not_mem_nil
  | cons c cs ih =>
    rw [List.splitOn_cons_eq_if_modifyHead] at h
    split at h
    · rcases List.mem_cons.mp h with rfl | h
      · exact List.not_mem_nil
      · exact ih h
    · next hc =>
      cases hsplit : cs.splitOn '/' with
      | nil => exact absurd hsplit (List.splitOn_ne_nil _ _)
      | cons first others =>
        rw [hsplit] at h ih
        rcases List.mem_cons.mp h with rfl | h
        · have hfirst := ih List.mem_cons_self
          simp only [List.mem_cons, not_or]
          exact ⟨fun heq => hc (beq_iff_eq.mpr heq.symm), hfirst⟩
        · exact ih (List.mem_cons_of_mem _ h)

theorem isSplit_ofString (s : String) : (ofString s).IsSplit := by
  intro part hpart
  obtain ⟨cs, hcs, rfl⟩ := List.mem_map.mp (List.mem_of_mem_filter hpart)
  simpa using no_slash_of_mem_splitOn hcs

theorem IsSplit.join {p q : Path} (hp : p.IsSplit) (hq : q.IsSplit) : (p.join q).IsSplit := by
  rw [Path.join]
  split
  · exact hq
  · intro part hpart
    rcases List.mem_append.mp hpart with hpart | hpart
    · exact hp part hpart
    · exact hq part hpart

theorem IsSplit.resolved {p : Path} (hp : p.IsSplit) : p.resolved.IsSplit := by
  have hempty : ∀ name ∈ ([] : List String), '/' ∉ name.toList := nofun
  refine List.foldlRecOn (motive := fun parts : List String => ∀ name ∈ parts, '/' ∉ name.toList)
    p.parts _ hempty ?_
  intro parts hparts part hpart
  have hmore {last : String} (hlast : '/' ∉ last.toList) :
      ∀ name ∈ parts ++ [last], '/' ∉ name.toList := by
    intro name hname
    rcases List.mem_append.mp hname with hname | hname
    · exact hparts name hname
    · exact List.mem_singleton.mp hname ▸ hlast
  -- A part comes last, or it takes the last one away.
  split
  · exact hmore (hp part hpart)
  · split
    · split
      · exact hparts
      · exact hmore (by decide)
    · exact fun name hname => hparts name ((List.dropLast_sublist parts).subset hname)

theorem IsSplit.no_slash_name {p : Path} (hp : p.IsSplit) : '/' ∉ p.name.toList := by
  rw [name, List.getLastD_eq_getLast?]
  cases hlast : p.parts.getLast? with
  | none => exact List.not_mem_nil
  | some part => exact hp part (List.mem_of_getLast? hlast)

end Path
end SchemaCompiler
