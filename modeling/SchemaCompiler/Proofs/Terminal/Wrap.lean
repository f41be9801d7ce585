import Mathlib.Data.List.Basic
import SchemaCompiler.Terminal.Wrap

/-!
The start of a text that is broken into lines. Two words that have room on a line stand together at the
start of the first line, whatever follows them.
-/
namespace SchemaCompiler.Terminal

open Text (isBlank dropBlanks dropBlanksEnd)

variable {c : Char} {cs line run start first word more blanks : List Char}
  {words : List (List Char)} {overflow : Overflow} {width used : Nat}

/-- A character of ASCII that is seen. It takes one cell, joins nothing and is not blank. -/
structure IsInk (c : Char) : Prop where
  low : 0x20 < c.toNat
  high : c.toNat ≤ 0x7e

instance : DecidablePred IsInk := fun c =>
  decidable_of_iff (0x20 < c.toNat ∧ c.toNat ≤ 0x7e) ⟨fun h => ⟨h.1, h.2⟩, fun h => ⟨h.1, h.2⟩⟩

theorem IsInk.not_blank (h : IsInk c) : isBlank c = false := by
  obtain ⟨hlow, hhigh⟩ := h
  simp only [isBlank, Bool.or_eq_false_iff, Bool.and_eq_false_iff, decide_eq_false_iff_not,
    beq_eq_false_iff_ne]
  omega

/-- Ink and single blanks, which take one cell each. -/
def IsPlain (c : Char) : Prop := IsInk c ∨ c = ' '

namespace IsPlain

theorem range (h : IsPlain c) : 0x20 ≤ c.toNat ∧ c.toNat ≤ 0x7e := by
  rcases h with ⟨hlow, hhigh⟩ | rfl
  · exact ⟨Nat.le_of_lt hlow, hhigh⟩
  · decide

theorem ne (h : IsPlain c) {d : Char} (hd : d.toNat < 0x20 ∨ 0x7e < d.toNat) : c ≠ d := by
  rintro rfl
  have hrange := h.range
  omega

theorem cellsOf_eq (h : IsPlain c) : cellsOf c = 1 := by
  rw [cellsOf, if_pos (by simpa using h.range)]

theorem not_joiner (h : IsPlain c) : (c == joiner) = false := beq_false_of_ne (h.ne (by decide))

theorem not_pictureMark (h : IsPlain c) : (c == pictureMark) = false :=
  beq_false_of_ne (h.ne (by decide))

end IsPlain

theorem cells_plain (h : ∀ c ∈ cs, IsPlain c) : cells cs = cs.length := by
  suffices ∀ last, cellsAfter last cs = cs.length from this none
  induction cs with
  | nil => exact fun _ => rfl
  | cons c rest ih =>
    obtain ⟨hc, hrest⟩ := List.forall_mem_cons.mp h
    intro last
    cases rest with
    | nil =>
      rw [cellsAfter, hc.not_joiner, hc.not_pictureMark, hc.cellsOf_eq]
      rfl
    | cons d rest =>
      have hlater := ih hrest (some c)
      rw [cellsAfter, hc.not_joiner, hc.not_pictureMark, hc.cellsOf_eq, hlater]
      exact Nat.add_comm 1 _

/-- A word is ink. -/
structure IsWord (word : List Char) : Prop where
  ne_nil : word ≠ []
  ink : ∀ c ∈ word, IsInk c

namespace IsWord

/-- Blanks behind a word are dropped. -/
theorem dropBlanksEnd_append (h : IsWord word) (hblanks : ∀ b ∈ blanks, isBlank b = true) :
    dropBlanksEnd (word ++ blanks) = word := by
  have hdrop : word.reverse.dropWhile isBlank = word.reverse := by
    cases hword : word.reverse with
    | nil => rfl
    | cons c rest =>
      have hc := h.ink c (List.mem_reverse.mp (hword ▸ List.mem_cons_self))
      exact List.dropWhile_cons_of_neg (by rw [hc.not_blank]; exact Bool.false_ne_true)
  rw [dropBlanksEnd, dropBlanks, List.reverse_append,
    List.dropWhile_append_of_pos fun b hb => hblanks b (List.mem_reverse.mp hb), hdrop,
    List.reverse_reverse]

theorem any_ink (h : IsWord word) : word.any (!isBlank ·) = true := by
  obtain ⟨c, hc⟩ := List.exists_mem_of_ne_nil word h.ne_nil
  exact List.any_eq_true.mpr ⟨c, hc, by rw [(h.ink c hc).not_blank]; rfl⟩

end IsWord

theorem isPlain_of_words (hfirst : IsWord first) (hword : IsWord word) :
    ∀ c ∈ first ++ ' ' :: (word ++ [' ']), IsPlain c := by
  intro c hc
  rcases List.mem_append.mp hc with hc | hc
  · exact .inl (hfirst.ink c hc)
  rcases List.mem_cons.mp hc with hc | hc
  · exact .inr hc
  · exact (List.mem_append.mp hc).imp (hword.ink c) List.mem_singleton.mp

/-- What ends in ink is never dropped. -/
theorem prefix_dropBlanksEnd (hc : IsInk c) (hline : start ++ [c] <+: line) :
    start ++ [c] <+: dropBlanksEnd line := by
  obtain ⟨more, rfl⟩ := hline
  have hink : (c :: start.reverse).dropWhile isBlank = c :: start.reverse :=
    List.dropWhile_cons_of_neg (by rw [hc.not_blank]; exact Bool.false_ne_true)
  have hreverse : (start ++ [c] ++ more).reverse = more.reverse ++ (start ++ [c]).reverse :=
    List.reverse_append
  rw [← List.reverse_suffix, dropBlanksEnd, dropBlanks, List.reverse_reverse, hreverse,
    List.dropWhile_append, List.reverse_append]
  split
  · exact (congrArg (c :: start.reverse <:+ ·) hink).mpr List.suffix_rfl
  · exact List.suffix_append _ _

theorem prefix_cutBlanks (hc : IsInk c) (hline : start ++ [c] <+: line) :
    start ++ [c] <+: cutBlanks width line := by
  have hkept := (prefix_dropBlanksEnd hc hline).length_le
  have hshort : (dropBlanksEnd line).length ≤ line.length := by
    rw [dropBlanksEnd, dropBlanks, List.length_reverse]
    exact Nat.le_trans (List.dropWhile_suffix _).length_le (Nat.le_of_eq List.length_reverse)
  refine List.prefix_take_iff.mpr ⟨hline, Nat.le_trans hkept ?_⟩
  omega

/-- The first line of a text starts as the text does. -/
theorem exists_splitOn (h : '\n' ∉ start) (more : List Char) :
    ∃ part parts, (start ++ more).splitOn '\n' = (start ++ part) :: parts := by
  induction start with
  | nil =>
    cases hparts : more.splitOn '\n' with
    | nil => exact absurd hparts (List.splitOn_ne_nil _ _)
    | cons part parts => exact ⟨part, parts, hparts⟩
  | cons c start ih =>
    obtain ⟨hc, hstart⟩ := not_or.mp (mt List.mem_cons.mpr h)
    obtain ⟨part, parts, hparts⟩ := ih hstart
    refine ⟨part, parts, ?_⟩
    rw [List.cons_append, List.splitOn_cons_eq_if_modifyHead, hparts,
      if_neg (by simpa using Ne.symm hc)]
    rfl

theorem prefix_expandTabs (used : Nat) (part more : List Char) :
    part.reverse <+: expandTabs used part more := by
  induction more generalizing part with
  | nil => exact List.prefix_rfl
  | cons c more ih =>
    rw [expandTabs]
    split
    · rw [List.append_assoc, List.reverse_cons, List.append_assoc]
      exact List.prefix_append _ _
    · refine List.IsPrefix.trans ?_ (ih (c :: part))
      rw [List.reverse_cons]
      exact List.prefix_append _ _

theorem prefix_expandTabs_append (h : '\t' ∉ start) (used : Nat) (part more : List Char) :
    part.reverse ++ start <+: expandTabs used part (start ++ more) := by
  induction start generalizing part with
  | nil =>
    rw [List.append_nil]
    exact prefix_expandTabs used part more
  | cons c start ih =>
    obtain ⟨hc, hstart⟩ := not_or.mp (mt List.mem_cons.mpr h)
    have hmore := ih hstart (c :: part)
    rw [List.cons_append, expandTabs, if_neg (by simpa using Ne.symm hc)]
    rwa [List.reverse_cons, List.append_assoc] at hmore

section Stretches

/-- A word goes on as long as nothing is blank. -/
theorem stretches_ink (hrun : run.head?.any isBlank = false) (hcs : ∀ c ∈ cs, IsInk c)
    (more : List Char) : stretches run (cs ++ more) = stretches (cs.reverse ++ run) more := by
  induction cs generalizing run with
  | nil => rfl
  | cons c cs ih =>
    obtain ⟨hc, hcs⟩ := List.forall_mem_cons.mp hcs
    rw [List.cons_append, stretches, hrun, if_neg (by simp), ih (by simpa using hc.not_blank) hcs,
      List.reverse_cons, List.append_assoc]
    rfl

theorem stretches_blank (run more : List Char) :
    stretches run (' ' :: more) = stretches (' ' :: run) more := by
  rw [stretches]
  rfl

/-- The first ink after blanks starts a new word. -/
theorem stretches_next (hrun : run.any (!isBlank ·) = true) (hc : IsInk c) (more : List Char) :
    stretches (' ' :: run) (c :: more) = (' ' :: run).reverse :: stretches [c] more := by
  rw [stretches, if_pos]
  simpa [hc.not_blank, show isBlank ' ' = true from rfl] using hrun

/-- A word that has come to its blanks takes all blanks that follow. -/
theorem exists_stretches (hrun : run.head?.any isBlank = true) (hink : run.any (!isBlank ·) = true)
    (more : List Char) : ∃ blanks words, stretches run more = (run.reverse ++ blanks) :: words ∧
      ∀ b ∈ blanks, isBlank b = true := by
  induction more generalizing run with
  | nil =>
    refine ⟨[], [], ?_, nofun⟩
    cases run with
    | nil => cases hrun
    | cons c run => rw [List.append_nil]; rfl
  | cons c more ih =>
    rw [stretches, hrun, hink]
    by_cases hc : isBlank c = true
    · rw [if_neg (by simp [hc])]
      have hblank : (c :: run).head?.any isBlank = true := hc
      obtain ⟨blanks, words, hwords, hblanks⟩ := ih hblank (by simpa [hc] using hink)
      refine ⟨c :: blanks, words, ?_, List.forall_mem_cons.mpr ⟨hc, hblanks⟩⟩
      rw [hwords, List.reverse_cons, List.append_assoc]
      rfl
    · rw [if_pos (by simpa using hc)]
      exact ⟨[], _, by rw [List.append_nil], nofun⟩

/-- The first two words of a line. -/
theorem exists_two_stretches (hfirst : IsWord first) (hword : IsWord word) (more : List Char) :
    ∃ blanks words, stretches [] (first ++ ' ' :: (word ++ ' ' :: more)) =
        (first ++ [' ']) :: (word ++ ' ' :: blanks) :: words ∧ ∀ b ∈ blanks, isBlank b = true := by
  have hink : first.reverse.any (!isBlank ·) = true := by
    rw [List.any_reverse]
    exact hfirst.any_ink
  obtain ⟨c, word, rfl⟩ := List.exists_cons_of_ne_nil hword.ne_nil
  obtain ⟨hc, hrest⟩ := List.forall_mem_cons.mp hword.ink
  have hany : (' ' :: (word.reverse ++ [c])).any (!isBlank ·) = true := by
    simp [hc.not_blank]
  obtain ⟨blanks, words, hwords, hblanks⟩ := exists_stretches rfl hany more
  refine ⟨blanks, words, ?_, hblanks⟩
  rw [stretches_ink rfl hfirst.ink, stretches_blank, List.append_nil, List.cons_append,
    stretches_next hink hc, stretches_ink (by simpa using hc.not_blank) hrest, stretches_blank, hwords]
  simp

end Stretches

section Fill

theorem fill_room (h : used + cells (dropBlanksEnd word) ≤ width) :
    fill overflow width line used (word :: words) =
      fill overflow width (line ++ word) (used + cells word) words := by
  rw [fill]
  exact if_pos h

/-- A line that is begun is the start of the first line. -/
theorem exists_fill (overflow : Overflow) (width : Nat) (hline : line ≠ []) (used : Nat)
    (words : List (List Char)) :
    ∃ filled rest, fill overflow width line used words = filled :: rest ∧ line <+: filled := by
  induction words generalizing line used with
  | nil => exact ⟨line, [], rfl, List.prefix_rfl⟩
  | cons word words ih =>
    rw [fill]
    dsimp only
    split
    · have hmore : line ++ word ≠ [] := List.append_ne_nil_of_left_ne_nil hline word
      obtain ⟨filled, rest, hfill, hstart⟩ := ih hmore (used + cells word)
      exact ⟨filled, rest, hfill, (List.prefix_append _ _).trans hstart⟩
    · rw [if_neg (mt List.isEmpty_iff.mp hline)]
      split
      · exact ⟨line, _, rfl, List.prefix_rfl⟩
      · exact ⟨line, _, rfl, List.prefix_rfl⟩

/-- Two words that have room on the first line. -/
theorem exists_fill_two (overflow : Overflow) (hfirst : IsWord first) (hword : IsWord word)
    (hblanks : ∀ b ∈ blanks, isBlank b = true) (hroom : first.length + word.length + 1 ≤ width)
    (words : List (List Char)) : ∃ filled rest,
      fill overflow width [] 0 ((first ++ [' ']) :: (word ++ ' ' :: blanks) :: words) =
        filled :: rest ∧ first ++ ' ' :: word <+: filled := by
  have hneed {word blanks : List Char} (hword : IsWord word)
      (hblanks : ∀ b ∈ blanks, isBlank b = true) :
      cells (dropBlanksEnd (word ++ ' ' :: blanks)) = word.length := by
    rw [hword.dropBlanksEnd_append (List.forall_mem_cons.mpr ⟨rfl, hblanks⟩)]
    exact cells_plain fun c hc => .inl (hword.ink c hc)
  have hcells : cells (first ++ [' ']) = first.length + 1 := by
    rw [cells_plain, List.length_append, List.length_singleton]
    intro c hc
    exact (List.mem_append.mp hc).imp (hfirst.ink c) List.mem_singleton.mp
  have hline : [] ++ (first ++ [' ']) ++ (word ++ ' ' :: blanks) ≠ [] := by simp
  obtain ⟨filled, rest, hfill, hstart⟩ := exists_fill overflow width hline
    (0 + cells (first ++ [' ']) + cells (word ++ ' ' :: blanks)) words
  refine ⟨filled, rest, ?_, List.IsPrefix.trans ⟨' ' :: blanks, by simp⟩ hstart⟩
  rw [fill_room, fill_room, hfill]
  · rw [hcells, hneed hword hblanks]
    omega
  · rw [hneed hfirst (List.forall_mem_nil _)]
    omega

end Fill

section Crop

/-- A cluster of one plain character. -/
def Cluster.single (c : Char) : Cluster := ⟨[c], 1⟩

theorem clustersAfter_cons (hc : IsPlain c) (last : Option Char) (before : List Cluster)
    (more : List Char) : clustersAfter last before (c :: more) =
      clustersAfter (some c) (.single c :: before) more := by
  cases before with
  | nil => simp [clustersAfter, hc.cellsOf_eq, Cluster.single]
  | cons cluster others =>
    cases more with
    | nil =>
      simp [clustersAfter, hc.not_joiner, hc.not_pictureMark, hc.cellsOf_eq, Cluster.single]
    | cons d more =>
      rw [clustersAfter, hc.not_joiner, hc.not_pictureMark, hc.cellsOf_eq]
      rfl

theorem clustersAfter_plain (hcs : ∀ c ∈ cs, IsPlain c) (last : Option Char) (before : List Cluster)
    (more : List Char) : ∃ last', clustersAfter last before (cs ++ more) =
      clustersAfter last' ((cs.map Cluster.single).reverse ++ before) more := by
  induction cs generalizing last before with
  | nil => exact ⟨last, rfl⟩
  | cons c cs ih =>
    obtain ⟨hc, hcs⟩ := List.forall_mem_cons.mp hcs
    obtain ⟨last', hlast⟩ := ih hcs (some c) (.single c :: before)
    refine ⟨last', ?_⟩
    rw [List.cons_append, clustersAfter_cons hc, hlast, List.map_cons, List.reverse_cons,
      List.append_assoc, List.singleton_append]

/-- Only the last cluster can still grow. -/
theorem prefix_clustersAfter (last : Option Char) (before : List Cluster) (more : List Char) :
    before.tail.reverse <+: clustersAfter last before more := by
  have hstart (before : List Cluster) : before.tail.reverse <+: before.reverse :=
    List.reverse_prefix.mpr (List.tail_suffix before)
  fun_induction clustersAfter last before more with
  | case1 last before => exact hstart before
  | case2 last c rest ih => exact ih
  | case3 last c cluster others hjoins => exact List.reverse_prefix.mpr (List.suffix_cons _ _)
  | case4 last c cluster others hjoins d rest ih => exact ih
  | case5 last c rest cluster others hjoins hpicture ih => exact ih
  | case6 last c rest cluster others hjoins hpicture hflat ih => exact ih
  | case7 last c rest cluster others hjoins hpicture hflat ih => exact (hstart _).trans ih

theorem prefix_cropTo (h : cs.length ≤ width) (more : List Cluster) :
    cs <+: cropTo width (cs.map Cluster.single ++ more) := by
  induction cs generalizing width with
  | nil => exact List.nil_prefix
  | cons c cs ih =>
    rw [List.length_cons] at h
    have hroom : (width == 0) = false := beq_false_of_ne (by omega)
    have hfits : (Cluster.single c).size ≤ width := Nat.le_trans (Nat.le_add_left 1 _) h
    rw [List.map_cons, List.cons_append, cropTo, hroom, if_neg Bool.false_ne_true, if_pos hfits]
    exact List.cons_prefix_cons.mpr ⟨rfl, ih (Nat.le_sub_of_add_le h)⟩

/-- Plain characters with another one behind them stay at the start of a line. -/
theorem prefix_crop (hcs : ∀ c ∈ cs, IsPlain c) (hc : IsPlain c) (hwidth : cs.length ≤ width)
    (hline : cs ++ [c] <+: line) : cs <+: crop width line := by
  obtain ⟨more, rfl⟩ := hline
  have hall : ∀ d ∈ cs ++ [c], IsPlain d := by
    rw [List.forall_mem_append, List.forall_mem_singleton]
    exact ⟨hcs, hc⟩
  obtain ⟨last, hclusters⟩ := clustersAfter_plain hall none [] more
  have hstart := prefix_clustersAfter last (((cs ++ [c]).map Cluster.single).reverse ++ []) more
  rw [← hclusters] at hstart
  simp only [List.map_append, List.map_cons, List.map_nil, List.reverse_append, List.reverse_cons,
    List.reverse_nil, List.nil_append, List.append_nil, List.singleton_append, List.tail_cons,
    List.reverse_reverse] at hstart
  obtain ⟨others, hothers⟩ := hstart
  rw [crop, clusters, ← hothers]
  exact prefix_cropTo hwidth others

theorem prefix_fit (hcs : ∀ c ∈ cs, IsPlain c) (hc : IsPlain c) (hwidth : cs.length < width)
    (hline : cs ++ [c] <+: line) : cs <+: fit overflow width line := by
  simp only [fit]
  split
  · exact (List.prefix_append _ _).trans hline
  · cases overflow with
    | fold => exact prefix_crop hcs hc (Nat.le_of_lt hwidth) hline
    | dots =>
      exact (prefix_crop hcs hc (Nat.le_sub_one_of_lt hwidth) hline).trans (List.prefix_append _ _)

end Crop

/-- A text starts with two words that have room on a line. A line then starts with them, but for the
last character, which could still become one picture with what follows. -/
theorem exists_wrap {s : String} (overflow : Overflow) (hfirst : IsWord first)
    (hword : IsWord (cs ++ [c])) (hroom : first.length + cs.length + 2 ≤ width)
    (hs : first ++ ' ' :: (cs ++ [c] ++ [' ']) <+: s.toList) :
    ∃ line ∈ wrap overflow width s, first ++ ' ' :: cs <+: line.toList := by
  have hplain := isPlain_of_words hfirst hword
  have hfree {d : Char} (hd : d.toNat < 0x20 ∨ 0x7e < d.toNat) :
      d ∉ first ++ ' ' :: (cs ++ [c] ++ [' ']) := fun hmem => (hplain d hmem).ne hd rfl
  obtain ⟨more, hs⟩ := hs
  obtain ⟨part, parts, hlines⟩ := exists_splitOn (hfree (by decide)) more
  obtain ⟨tail, htail⟩ := prefix_expandTabs_append (hfree (by decide)) 0 [] part
  obtain ⟨blanks, words, hwords, hblanks⟩ := exists_two_stretches hfirst hword tail
  have hshort : first.length + (cs ++ [c]).length + 1 ≤ width := by
    rw [List.length_append, List.length_singleton]
    omega
  obtain ⟨filled, rest, hfill, hstart⟩ :=
    exists_fill_two overflow hfirst hword hblanks hshort words
  have hline : stretches [] (expandTabs 0 [] (first ++ ' ' :: (cs ++ [c] ++ [' ']) ++ part)) =
      (first ++ [' ']) :: (cs ++ [c] ++ ' ' :: blanks) :: words := by
    rw [← htail, ← hwords]
    simp
  have hcut : first ++ ' ' :: cs ++ [c] <+: cutBlanks width filled :=
    prefix_cutBlanks (hword.ink c (by simp)) (by simpa using hstart)
  refine ⟨String.ofList (fit overflow width (cutBlanks width filled)), ?_, ?_⟩
  · rw [wrap_of_pos (by omega), broken, ← hs, hlines, List.flatMap_cons, hline, hfill]
    simp
  · rw [String.toList_ofList]
    refine prefix_fit (fun d hd => hplain d ?_) (hplain c (by simp)) ?_ hcut
    · rw [← List.singleton_append] at hd ⊢
      simp only [List.mem_append] at hd ⊢
      tauto
    · rw [List.length_append, List.length_cons]
      omega

end SchemaCompiler.Terminal
