import Mathlib.Data.List.TakeWhile
import SchemaCompiler.Proofs.Terminal.Wrap

/-!
Texts that are broken into lines. A line that is folded loses blanks only, unless a character changes how
wide its neighbour is.
-/
namespace SchemaCompiler.Terminal

open Text (isBlank dropBlanks dropBlanksEnd)

variable {a b cs line word piece body blanks : List Char} {words : List (List Char)}
  {parts : List Cluster} {width used size : Nat}

/-- What is not blank in a text. -/
def ink (cs : List Char) : List Char := cs.filter (!isBlank ·)

/-- The number of cells that characters take one by one. -/
def span : List Char → Nat
  | [] => 0
  | c :: rest => cellsOf c + span rest

/-- A text in which no character changes how wide another one is. -/
def Separate (cs : List Char) : Prop := joiner ∉ cs ∧ pictureMark ∉ cs

instance : DecidablePred Separate := fun cs =>
  inferInstanceAs (Decidable (joiner ∉ cs ∧ pictureMark ∉ cs))

section Ink

@[simp] theorem ink_append (a b : List Char) : ink (a ++ b) = ink a ++ ink b := List.filter_append _ _

theorem ink_blanks (h : ∀ c ∈ blanks, isBlank c = true) : ink blanks = [] :=
  List.filter_eq_nil_iff.mpr fun c hc => by simp [h c hc]

theorem ink_flatMap {α : Type} (f : α → List Char) (l : List α) :
    ink (l.flatMap f) = l.flatMap fun a => ink (f a) := by
  induction l with
  | nil => rfl
  | cons a l ih => rw [List.flatMap_cons, ink_append, ih, List.flatMap_cons]

@[simp] theorem span_cons (c : Char) (cs : List Char) : span (c :: cs) = cellsOf c + span cs := rfl

@[simp] theorem span_append (a b : List Char) : span (a ++ b) = span a + span b := by
  induction a with
  | nil => exact (Nat.zero_add _).symm
  | cons c a ih => rw [List.cons_append, span_cons, span_cons, ih, Nat.add_assoc]

theorem Separate.mono (h : Separate b) (hsub : a ⊆ b) : Separate a :=
  ⟨fun hmem => h.1 (hsub hmem), fun hmem => h.2 (hsub hmem)⟩

/-- The cells of a text whose characters do not act on each other. -/
theorem cells_separate (h : Separate cs) : cells cs = span cs := by
  suffices ∀ last, cellsAfter last cs = span cs from this none
  induction cs with
  | nil => exact fun _ => rfl
  | cons c rest ih =>
    have hjoiner : (c == joiner) = false := beq_false_of_ne fun heq => h.1 (heq ▸ List.mem_cons_self)
    have hmark : (c == pictureMark) = false :=
      beq_false_of_ne fun heq => h.2 (heq ▸ List.mem_cons_self)
    have hrest := ih (h.mono (List.subset_cons_self c rest))
    intro last
    rw [span_cons]
    cases rest with
    | nil =>
      rw [cellsAfter, hjoiner, hmark]
      rfl
    | cons d rest =>
      rw [cellsAfter, hjoiner, hmark, if_neg Bool.false_ne_true, if_neg Bool.false_ne_true, hrest,
        hrest]
      split
      · next hflat => rw [beq_iff_eq.mp hflat, Nat.zero_add]
      · rfl

end Ink

section Parts

theorem ink_splitOn (cs : List Char) : (cs.splitOn '\n').flatMap ink = ink cs := by
  induction cs with
  | nil => rfl
  | cons c cs ih =>
    rw [List.splitOn_cons_eq_if_modifyHead]
    split
    · next hc =>
      have hblank : ink (c :: cs) = ink cs := by
        rw [beq_iff_eq.mp hc]
        rfl
      rw [List.flatMap_cons, ih, hblank]
      rfl
    · cases hparts : cs.splitOn '\n' with
      | nil => exact absurd hparts (List.splitOn_ne_nil _ _)
      | cons part parts =>
        rw [hparts, List.flatMap_cons] at ih
        rw [List.modifyHead_cons, List.flatMap_cons, ← List.singleton_append, ink_append,
          List.append_assoc, ih, ← ink_append, List.singleton_append]

theorem subset_of_mem_splitOn {part : List Char} (h : part ∈ cs.splitOn '\n') : part ⊆ cs := by
  induction cs generalizing part with
  | nil =>
    rw [List.splitOn_nil, List.mem_singleton] at h
    rw [h]
    exact List.Subset.refl _
  | cons c cs ih =>
    rw [List.splitOn_cons_eq_if_modifyHead] at h
    split at h
    · rcases List.mem_cons.mp h with rfl | h
      · exact List.nil_subset _
      · exact List.Subset.trans (ih h) (List.subset_cons_self _ _)
    · cases hparts : cs.splitOn '\n' with
      | nil => exact absurd hparts (List.splitOn_ne_nil _ _)
      | cons first parts =>
        rw [hparts, List.modifyHead_cons] at h
        rcases List.mem_cons.mp h with rfl | h
        · exact List.cons_subset_cons c (ih (hparts ▸ List.mem_cons_self))
        · exact List.Subset.trans (ih (hparts ▸ List.mem_cons_of_mem _ h)) (List.subset_cons_self _ _)

/-- The blanks that a tab becomes. -/
theorem ink_expandTabs (column : Nat) (part cs : List Char) :
    ink (expandTabs column part cs) = ink part.reverse ++ ink cs := by
  fun_induction expandTabs column part cs with
  | case1 column part => exact (List.append_nil _).symm
  | case2 column part c rest htab blanks next size ih =>
    have hblanks : ink (List.replicate size ' ') = [] :=
      ink_blanks fun c hc => by rw [List.eq_of_mem_replicate hc]; rfl
    have htab' : ink (c :: rest) = ink rest := by
      rw [beq_iff_eq.mp htab]
      rfl
    have hpart : ink blanks = ink part.reverse := by
      rw [show blanks = part.reverse ++ [' '] from List.reverse_cons, ink_append]
      exact List.append_nil _
    rw [ink_append, ink_append, ih, hblanks, htab', hpart, List.append_nil]
    rfl
  | case3 column part c rest htab ih =>
    rw [ih, List.reverse_cons, ink_append, List.append_assoc, ← ink_append, List.singleton_append]

theorem subset_expandTabs (column : Nat) (part cs : List Char) :
    expandTabs column part cs ⊆ ' ' :: (part ++ cs) := by
  intro d hd
  fun_induction expandTabs column part cs with
  | case1 column part => simpa using .inr (List.mem_reverse.mp hd)
  | case2 column part c rest htab blanks next size ih =>
    have hblanks : d ∈ blanks ↔ d = ' ' ∨ d ∈ part := by
      rw [show blanks = (' ' :: part).reverse from rfl, List.mem_reverse, List.mem_cons]
    rw [List.mem_append, List.mem_append, hblanks, List.mem_replicate] at hd
    rcases hd with (hd | ⟨_, rfl⟩) | hd
    · simp only [List.mem_cons, List.mem_append]
      tauto
    · exact List.mem_cons_self
    · have hmem := ih hd
      simp only [List.mem_cons, List.mem_append, List.nil_append] at hmem ⊢
      tauto
  | case3 column part c rest htab ih =>
    have hmem := ih hd
    simp only [List.mem_cons, List.mem_append] at hmem ⊢
    tauto

theorem flatten_stretches (run cs : List Char) : (stretches run cs).flatten = run.reverse ++ cs := by
  fun_induction stretches run cs with
  | case1 run hrun => rw [List.isEmpty_iff.mp hrun]; rfl
  | case2 run hrun => simp
  | case3 run c rest hnext ih => rw [List.flatten_cons, ih]; rfl
  | case4 run c rest hnext ih => rw [ih, List.reverse_cons, List.append_assoc]; rfl

end Parts

section Clusters

theorem cellsOf_le (c : Char) : cellsOf c ≤ 2 := by
  rw [cellsOf]
  split
  · decide
  · split
    · decide
    · split <;> decide

theorem span_flat (h : ∀ c ∈ cs, cellsOf c = 0) : span cs = 0 := by
  induction cs with
  | nil => rfl
  | cons c cs ih =>
    obtain ⟨hc, hcs⟩ := List.forall_mem_cons.mp h
    rw [span_cons, hc, ih hcs]

/-- A character with those behind it that take no cell. -/
def Cluster.Even (c : Cluster) : Prop := ∃ first flat, c.chars = first :: flat ∧
  c.size = cellsOf first ∧ ∀ d ∈ flat, cellsOf d = 0

theorem Cluster.Even.span_eq {c : Cluster} (h : c.Even) : span c.chars = c.size := by
  obtain ⟨first, flat, hchars, hsize, hflat⟩ := h
  rw [hchars, hsize, span_cons, span_flat hflat, Nat.add_zero]

/-- Clusters of a text in which only the first may take no cell. -/
structure Clustered (cs : List Char) (parts : List Cluster) : Prop where
  whole : parts.flatMap Cluster.chars = cs
  even : ∀ c ∈ parts, c.Even
  solid : ∀ c ∈ parts.tail, 0 < c.size

variable {c : Char} {cluster : Cluster}

theorem Clustered.push (h : Clustered line parts) (hc : parts ≠ [] → 0 < cellsOf c) :
    Clustered (line ++ [c]) (parts ++ [⟨[c], cellsOf c⟩]) where
  whole := by
    rw [List.flatMap_append, h.whole]
    rfl
  even := by
    rw [List.forall_mem_append, List.forall_mem_singleton]
    exact ⟨h.even, c, [], rfl, rfl, nofun⟩
  solid := by
    cases hparts : parts with
    | nil => exact nofun
    | cons first others =>
      have hsolid := h.solid
      have hnew := hc (hparts ▸ List.cons_ne_nil _ _)
      rw [hparts] at hsolid
      rw [List.cons_append, List.tail_cons, List.forall_mem_append, List.forall_mem_singleton]
      exact ⟨hsolid, hnew⟩

theorem Clustered.grow (h : Clustered line (parts ++ [cluster])) (hc : cellsOf c = 0) :
    Clustered (line ++ [c]) (parts ++ [{ cluster with chars := cluster.chars ++ [c] }]) where
  whole := by
    have hwhole := h.whole
    rw [List.flatMap_append, List.flatMap_singleton] at hwhole
    rw [List.flatMap_append, List.flatMap_singleton, ← List.append_assoc, hwhole]
  even := by
    have heven := h.even
    rw [List.forall_mem_append, List.forall_mem_singleton] at heven ⊢
    obtain ⟨hothers, first, flat, hchars, hsize, hflat⟩ := heven
    refine ⟨hothers, first, flat ++ [c], by rw [hchars]; rfl, hsize, ?_⟩
    rw [List.forall_mem_append, List.forall_mem_singleton]
    exact ⟨hflat, hc⟩
  solid := by
    have hsolid := h.solid
    cases parts with
    | nil => exact nofun
    | cons first others =>
      rw [List.cons_append, List.tail_cons, List.forall_mem_append, List.forall_mem_singleton]
        at hsolid ⊢
      exact hsolid

theorem clustered_after (hcs : Separate cs) (last : Option Char) {before : List Cluster}
    (h : Clustered line before.reverse) : Clustered (line ++ cs) (clustersAfter last before cs) := by
  have hrest {c : Char} {rest : List Char} (h : Separate (c :: rest)) : Separate rest :=
    h.mono (List.subset_cons_self _ _)
  fun_induction clustersAfter last before cs generalizing line with
  | case1 last before => rwa [List.append_nil]
  | case2 last c rest ih =>
    rw [List.append_cons]
    exact ih (hrest hcs) (h.push fun hne => absurd rfl hne)
  | case3 last c cluster others hjoins =>
    exact absurd (beq_iff_eq.mp hjoins ▸ List.mem_cons_self) hcs.1
  | case4 last c cluster others hjoins d rest ih =>
    exact absurd (beq_iff_eq.mp hjoins ▸ List.mem_cons_self) hcs.1
  | case5 last c rest cluster others hjoins hpicture ih =>
    obtain ⟨hmark, _⟩ := Bool.and_eq_true_iff.mp hpicture
    exact absurd (beq_iff_eq.mp hmark ▸ List.mem_cons_self) hcs.2
  | case6 last c rest cluster others hjoins hpicture hflat ih =>
    rw [List.reverse_cons] at h ih
    rw [List.append_cons]
    exact ih (hrest hcs) (h.grow (beq_iff_eq.mp hflat))
  | case7 last c rest cluster others hjoins hpicture hflat ih =>
    rw [List.reverse_cons] at ih
    rw [List.append_cons]
    exact ih (hrest hcs) (h.push fun _ => Nat.pos_of_ne_zero (mt beq_iff_eq.mpr hflat))

theorem clustered_clusters (hcs : Separate cs) : Clustered cs (clusters cs) := by
  have hnone : Clustered [] ([] : List Cluster).reverse := ⟨rfl, nofun, nofun⟩
  exact clustered_after hcs none hnone

theorem size_le_of_even (h : ∀ c ∈ parts, c.Even) (hwidth : 2 ≤ width) :
    ∀ c ∈ parts, c.size ≤ width := by
  intro c hc
  obtain ⟨first, _, _, hsize, _⟩ := h c hc
  rw [hsize]
  exact Nat.le_trans (cellsOf_le first) hwidth

/-- The pieces of a word have room on a line, and nothing is lost. -/
theorem pieces_spec (heven : ∀ c ∈ parts, c.Even) (hroom : ∀ c ∈ parts, c.size ≤ width)
    (hpiece : span piece = size) (hsize : size ≤ width) :
    (pieces width piece size parts).flatten = piece ++ parts.flatMap Cluster.chars ∧
      ∀ p ∈ pieces width piece size parts, span p ≤ width := by
  induction parts generalizing piece size with
  | nil =>
    rw [pieces, List.forall_mem_singleton, hpiece]
    exact ⟨by simp, hsize⟩
  | cons c parts ih =>
    obtain ⟨hc, heven⟩ := List.forall_mem_cons.mp heven
    obtain ⟨hcroom, hroom⟩ := List.forall_mem_cons.mp hroom
    rw [pieces, List.flatMap_cons]
    split
    · obtain ⟨hwhole, hspans⟩ := ih heven hroom hc.span_eq hcroom
      rw [List.flatten_cons, hwhole, List.forall_mem_cons, hpiece]
      exact ⟨rfl, hsize, hspans⟩
    · next hfits =>
      have hmore : span (piece ++ c.chars) = size + c.size := by
        rw [span_append, hpiece, hc.span_eq]
      obtain ⟨hwhole, hspans⟩ := ih heven hroom hmore (Nat.le_of_not_lt hfits)
      rw [hwhole, List.append_assoc]
      exact ⟨rfl, hspans⟩

theorem pieces_ne_nil (width : Nat) (piece : List Char) (size : Nat) (parts : List Cluster) :
    pieces width piece size parts ≠ [] := by
  induction parts generalizing piece size with
  | nil => exact List.cons_ne_nil _ _
  | cons c parts ih =>
    rw [pieces]
    split
    · exact List.cons_ne_nil _ _
    · exact ih _ _

end Clusters

section Fill

/-- A line that has room but for blanks at its end. -/
def Narrow (width : Nat) (line : List Char) : Prop := ∃ body blanks, line = body ++ blanks ∧
  span body ≤ width ∧ ∀ b ∈ blanks, isBlank b = true

theorem exists_blanks (cs : List Char) : ∃ blanks, cs = dropBlanksEnd cs ++ blanks ∧
    ∀ b ∈ blanks, isBlank b = true := by
  refine ⟨(cs.reverse.takeWhile isBlank).reverse, ?_, fun b hb => ?_⟩
  · rw [dropBlanksEnd, dropBlanks, ← List.reverse_append, List.takeWhile_append_dropWhile,
      List.reverse_reverse]
  · exact List.mem_takeWhile_imp (List.mem_reverse.mp hb)

theorem narrow_of_span (h : span line ≤ width) : Narrow width line :=
  ⟨line, [], (List.append_nil line).symm, h, nofun⟩

/-- A word behind a line needs no room for its blanks. -/
theorem narrow_word (hword : Separate word)
    (hroom : span line + cells (dropBlanksEnd word) ≤ width) : Narrow width (line ++ word) := by
  obtain ⟨blanks, hsplit, hblanks⟩ := exists_blanks word
  have hkept : dropBlanksEnd word <+: word := ⟨blanks, hsplit.symm⟩
  refine ⟨line ++ dropBlanksEnd word, blanks, ?_, ?_, hblanks⟩
  · rw [List.append_assoc, ← hsplit]
  · rw [span_append, ← cells_separate (hword.mono hkept.subset)]
    exact hroom

theorem flatten_begun (line : List Char) : (if line.isEmpty then [] else [line]).flatten = line := by
  cases line with
  | nil => rfl
  | cons c line => exact List.append_nil _

theorem narrow_begun (h : Narrow width line) :
    ∀ l ∈ (if line.isEmpty then [] else [line]), Narrow width l := by
  split
  · exact nofun
  · exact List.forall_mem_singleton.mpr h

/-- A word that is too wide for a line, in its pieces. -/
theorem exists_pieces (hwidth : 2 ≤ width) (hword : Separate word) :
    let parts := pieces width [] 0 (clusters word)
    parts.dropLast.flatten ++ parts.getLastD [] = word ∧ (∀ p ∈ parts.dropLast, Narrow width p) ∧
      span (parts.getLastD []) ≤ width ∧ cells (parts.getLastD []) = span (parts.getLastD []) := by
  intro parts
  have hclusters := clustered_clusters hword
  have hnone : span [] = 0 := rfl
  obtain ⟨hwhole, hspans⟩ := pieces_spec hclusters.even (size_le_of_even hclusters.even hwidth) hnone
    (Nat.zero_le _)
  rw [hclusters.whole, List.nil_append] at hwhole
  have hne : parts ≠ [] := pieces_ne_nil width [] 0 _
  have hlast : parts.getLastD [] = parts.getLast hne := by
    rw [List.getLastD_eq_getLast?, List.getLast?_eq_some_getLast hne]
    rfl
  have hmem := List.getLast_mem hne
  have hsub : parts.getLast hne ⊆ word := by
    intro c hc
    rw [← hwhole]
    exact List.mem_flatten_of_mem hmem hc
  rw [hlast]
  refine ⟨?_, fun p hp => narrow_of_span (hspans p (List.dropLast_subset _ hp)), hspans _ hmem,
    cells_separate (hword.mono hsub)⟩
  have hsplit := congrArg List.flatten (List.dropLast_append_getLast hne)
  rw [List.flatten_append, List.flatten_singleton] at hsplit
  exact hsplit.trans hwhole

/-- The lines that words are filled into have room, and no word is lost. -/
theorem fill_spec (hwidth : 2 ≤ width) (hwords : ∀ w ∈ words, Separate w) (hused : used = span line)
    (hline : Narrow width line) :
    (fill .fold width line used words).flatten = line ++ words.flatten ∧
      ∀ l ∈ fill .fold width line used words, Narrow width l := by
  induction words generalizing line used with
  | nil =>
    rw [fill, List.forall_mem_singleton]
    exact ⟨by simp, hline⟩
  | cons word words ih =>
    obtain ⟨hword, hwords⟩ := List.forall_mem_cons.mp hwords
    have hcells := cells_separate hword
    rw [fill]
    dsimp only
    split
    · next hroom =>
      have hmore : used + cells word = span (line ++ word) := by
        rw [hused, hcells, span_append]
      obtain ⟨hwhole, hnarrow⟩ := ih hwords hmore (narrow_word hword (hused ▸ hroom))
      rw [hwhole, List.append_assoc]
      exact ⟨rfl, hnarrow⟩
    · split
      · obtain ⟨hpieces, hnarrow, hlast, hlastCells⟩ := exists_pieces hwidth hword
        obtain ⟨hwhole, hrest⟩ := ih hwords hlastCells (narrow_of_span hlast)
        rw [List.flatten_append, List.flatten_append, flatten_begun, hwhole, List.append_assoc,
          ← List.append_assoc _ _ words.flatten, hpieces]
        simp only [List.forall_mem_append]
        exact ⟨rfl, ⟨narrow_begun hline, hnarrow⟩, hrest⟩
      · next hroom hshort =>
        have hbegun : Narrow width ([] ++ word) := by
          refine narrow_word hword ?_
          simpa [span] using hshort
        obtain ⟨hwhole, hrest⟩ := ih hwords hcells hbegun
        rw [List.flatten_append, flatten_begun, hwhole, List.forall_mem_append]
        exact ⟨rfl, narrow_begun hline, hrest⟩

end Fill

section Fit

theorem narrow_take (h : Narrow width line) (n : Nat) : Narrow width (line.take n) := by
  obtain ⟨body, blanks, rfl, hbody, hblanks⟩ := h
  refine ⟨body.take n, blanks.take (n - body.length), List.take_append, ?_,
    fun b hb => hblanks b (List.mem_of_mem_take hb)⟩
  have hsplit := congrArg span (List.take_append_drop n body)
  rw [span_append] at hsplit
  omega

theorem ink_take {n : Nat} (h : (dropBlanksEnd line).length ≤ n) : ink (line.take n) = ink line := by
  obtain ⟨blanks, hsplit, hblanks⟩ := exists_blanks line
  generalize dropBlanksEnd line = body at h hsplit
  have hrest : ink (blanks.take (n - body.length)) = [] :=
    ink_blanks fun b hb => hblanks b (List.mem_of_mem_take hb)
  rw [hsplit, List.take_append, List.take_of_length_le h, ink_append, ink_append, hrest,
    ink_blanks hblanks]

theorem exists_cutBlanks (width : Nat) (line : List Char) :
    ∃ n, cutBlanks width line = line.take n ∧ (dropBlanksEnd line).length ≤ n := by
  obtain ⟨blanks, hsplit, _⟩ := exists_blanks line
  have hlength := congrArg List.length hsplit
  rw [List.length_append] at hlength
  exact ⟨_, rfl, by omega⟩

variable {c : Cluster} {rest : List Char}

/-- What is left to be shown of a line after its first cluster. -/
theorem exists_rest (hc : c.Even) (hsplit : c.chars ++ rest = body ++ blanks)
    (hbody : span body ≤ width) (hblanks : ∀ b ∈ blanks, isBlank b = true) :
    ∃ body' blanks', rest = body' ++ blanks' ∧ ink body = ink c.chars ++ ink body' ∧
      span body' ≤ width - c.size ∧ ∀ b ∈ blanks', isBlank b = true := by
  rcases List.append_eq_append_iff.mp hsplit with ⟨more, rfl, hrest⟩ | ⟨more, hchars, hrest⟩
  · rw [span_append, hc.span_eq] at hbody
    exact ⟨more, blanks, hrest, ink_append _ _, by omega, hblanks⟩
  · rw [hrest, List.forall_mem_append] at hblanks
    refine ⟨[], rest, rfl, ?_, Nat.zero_le _, hblanks.2⟩
    rw [hchars, ink_append, ink_blanks hblanks.1, List.append_assoc]
    exact (List.append_nil _).symm

/-- A cluster that has no room is blank. -/
theorem eq_nil_of_size (hc : c.Even) (hsplit : c.chars ++ rest = body ++ blanks)
    (hbody : span body ≤ width) (hsize : width < c.size) : body = [] := by
  rcases List.append_eq_append_iff.mp hsplit with ⟨more, rfl, _⟩ | ⟨more, hchars, _⟩
  · rw [span_append, hc.span_eq] at hbody
    omega
  · obtain ⟨first, flat, hfirst, hfirstSize, _⟩ := hc
    cases body with
    | nil => rfl
    | cons d body =>
      rw [hfirst, List.cons_append, List.cons.injEq] at hchars
      rw [span_cons, ← hchars.1, ← hfirstSize] at hbody
      omega

theorem ink_cropTo (heven : ∀ c ∈ parts, c.Even) (hsolid : ∀ c ∈ parts, 0 < c.size)
    (hsplit : parts.flatMap Cluster.chars = body ++ blanks) (hbody : span body ≤ width)
    (hblanks : ∀ b ∈ blanks, isBlank b = true) : ink (cropTo width parts) = ink body := by
  induction parts generalizing width body blanks with
  | nil =>
    obtain ⟨rfl, _⟩ := List.append_eq_nil_iff.mp hsplit.symm
    rfl
  | cons c parts ih =>
    obtain ⟨hc, heven⟩ := List.forall_mem_cons.mp heven
    obtain ⟨hsize, hsolid⟩ := List.forall_mem_cons.mp hsolid
    rw [List.flatMap_cons] at hsplit
    rw [cropTo]
    by_cases hroom : c.size ≤ width
    · obtain ⟨body', blanks', hrest, hink, hbody', hblanks'⟩ :=
        exists_rest hc hsplit hbody hblanks
      have hwidth : (width == 0) = false := beq_false_of_ne (by omega)
      rw [hwidth, if_neg Bool.false_ne_true, if_pos hroom, ink_append,
        ih heven hsolid hrest hbody' hblanks', hink]
    · obtain rfl := eq_nil_of_size hc hsplit hbody (Nat.lt_of_not_le hroom)
      rw [if_neg hroom]
      split <;> rfl

/-- Only blanks are cut off a line that has room but for its blanks. -/
theorem ink_crop (hwidth : 2 ≤ width) (hline : Separate line) (hnarrow : Narrow width line) :
    ink (crop width line) = ink line := by
  obtain ⟨body, blanks, rfl, hbody, hblanks⟩ := hnarrow
  have hclusters := clustered_clusters hline
  have hroom := size_le_of_even hclusters.even hwidth
  obtain ⟨hwhole, heven, hsolid⟩ := hclusters
  rw [crop, ink_append, ink_blanks hblanks, List.append_nil]
  generalize clusters (body ++ blanks) = parts at hwhole heven hsolid hroom
  cases parts with
  | nil =>
    obtain ⟨rfl, _⟩ := List.append_eq_nil_iff.mp hwhole.symm
    rfl
  | cons c parts =>
    obtain ⟨hc, heven⟩ := List.forall_mem_cons.mp heven
    rw [List.flatMap_cons] at hwhole
    obtain ⟨body', blanks', hrest, hink, hbody', hblanks'⟩ := exists_rest hc hwhole hbody hblanks
    have hpositive : (width == 0) = false := beq_false_of_ne (by omega)
    rw [cropTo, hpositive, if_neg Bool.false_ne_true, if_pos (hroom c List.mem_cons_self), ink_append,
      ink_cropTo heven hsolid hrest hbody' hblanks', hink]

theorem ink_fit (hwidth : 2 ≤ width) (hline : Separate line) (hnarrow : Narrow width line) :
    ink (fit .fold width (cutBlanks width line)) = ink line := by
  obtain ⟨n, hcut, hn⟩ := exists_cutBlanks width line
  rw [hcut, ← ink_take hn, fit]
  split
  · rfl
  · exact ink_crop hwidth (hline.mono (List.take_subset _ _)) (narrow_take hnarrow n)

end Fit

theorem ink_fold {part : List Char} (hpart : Separate part) (hwidth : 2 ≤ width) :
    (fill .fold width [] 0 (stretches [] (expandTabs 0 [] part))).flatMap
      (fun line => ink (fit .fold width (cutBlanks width line))) = ink part := by
  have hexpanded : Separate (expandTabs 0 [] part) := by
    have hblank : Separate (' ' :: part) := by
      simp only [Separate, List.mem_cons, not_or]
      exact ⟨⟨by decide, hpart.1⟩, by decide, hpart.2⟩
    exact hblank.mono (subset_expandTabs 0 [] part)
  have hwords := flatten_stretches [] (expandTabs 0 [] part)
  rw [List.reverse_nil, List.nil_append] at hwords
  have hseparate : ∀ w ∈ stretches [] (expandTabs 0 [] part), Separate w := fun w hw =>
    hexpanded.mono (hwords ▸ fun _ hc => List.mem_flatten_of_mem hw hc)
  have hnone : 0 = span [] := rfl
  obtain ⟨hwhole, hnarrow⟩ := fill_spec hwidth hseparate hnone (narrow_of_span (Nat.zero_le width))
  rw [hwords, List.nil_append] at hwhole
  generalize fill .fold width [] 0 (stretches [] (expandTabs 0 [] part)) = lines at hwhole hnarrow
  have hink := congrArg ink hwhole
  rw [← List.flatMap_id, ink_flatMap] at hink
  calc lines.flatMap (fun line => ink (fit .fold width (cutBlanks width line)))
      = lines.flatMap ink := by
        refine List.flatMap_congr fun line hline => ink_fit hwidth ?_ (hnarrow line hline)
        exact hexpanded.mono (hwhole ▸ fun _ hc => List.mem_flatten_of_mem hline hc)
    _ = ink (expandTabs 0 [] part) := hink
    _ = ink part := ink_expandTabs 0 [] part

/-- A text that is folded into lines loses blanks only. -/
theorem ink_wrap {s : String} (hs : Separate s.toList) (hwidth : 2 ≤ width) :
    ink ((wrap .fold width s).flatMap String.toList) = ink s.toList := by
  rw [wrap_of_pos (by omega), ink_flatMap, List.flatMap_map, broken, List.flatMap_assoc, ← ink_splitOn]
  refine List.flatMap_congr fun part hpart => ?_
  rw [List.flatMap_map]
  simp only [String.toList_ofList]
  exact ink_fold (hs.mono (subset_of_mem_splitOn hpart)) hwidth

end SchemaCompiler.Terminal
