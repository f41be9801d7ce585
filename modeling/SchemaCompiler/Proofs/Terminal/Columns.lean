import Mathlib.Algebra.Order.BigOperators.Group.List
import Mathlib.Algebra.Order.Group.Nat
import SchemaCompiler.Proofs.Terminal.Breaking
import SchemaCompiler.Proofs.Terminal.Widths

/-!
Texts that have room. A line that is no wider than its column is printed as it is, and the columns of a
grid are as wide as they ask for when these widths have room together. A text whose broken lines have room
keeps all its ink in a column.
-/
namespace SchemaCompiler

namespace Terminal

variable {cs line part : List Char} {words : List (List Char)} {s : String} {width used : Nat}

/-- A line in which every character takes room. -/
def Solid (cs : List Char) : Prop := ∀ c ∈ cs, 0 < cellsOf c

instance : DecidablePred Solid := List.decidableBAll (0 < cellsOf ·)

theorem Solid.not_mem (h : Solid cs) {c : Char} (hc : cellsOf c = 0) : c ∉ cs := fun hmem => by
  have hroom := h c hmem
  omega

theorem Solid.separate (h : Solid cs) : Separate cs :=
  ⟨h.not_mem (by decide +kernel), h.not_mem (by decide +kernel)⟩

theorem Solid.length_le (h : Solid cs) : cs.length ≤ span cs := by
  induction cs with
  | nil => exact Nat.le_refl 0
  | cons c cs ih =>
    obtain ⟨hc, hcs⟩ := List.forall_mem_cons.mp h
    have hmore := ih hcs
    rw [List.length_cons, span_cons]
    omega

theorem splitOn_of_not_mem (h : '\n' ∉ cs) : cs.splitOn '\n' = [cs] := by
  induction cs with
  | nil => rfl
  | cons c cs ih =>
    obtain ⟨hc, hcs⟩ := not_or.mp (mt List.mem_cons.mpr h)
    rw [List.splitOn_cons_eq_if_modifyHead, if_neg (by simpa using Ne.symm hc), ih hcs]
    rfl

theorem expandTabs_of_not_mem (h : '\t' ∉ cs) (column : Nat) (part : List Char) :
    expandTabs column part cs = part.reverse ++ cs := by
  induction cs generalizing part with
  | nil => exact (List.append_nil _).symm
  | cons c cs ih =>
    obtain ⟨hc, hcs⟩ := not_or.mp (mt List.mem_cons.mpr h)
    rw [expandTabs, if_neg (by simpa using Ne.symm hc), ih hcs, List.reverse_cons, List.append_assoc]
    rfl

/-- Words that have room together stay on one line. -/
theorem fill_of_room (overflow : Overflow) (hwords : ∀ w ∈ words, Separate w)
    (hroom : used + span words.flatten ≤ width) :
    fill overflow width line used words = [line ++ words.flatten] := by
  induction words generalizing line used with
  | nil => rw [fill, List.flatten_nil, List.append_nil]
  | cons word words ih =>
    obtain ⟨hword, hwords⟩ := List.forall_mem_cons.mp hwords
    obtain ⟨blanks, hsplit, _⟩ := exists_blanks word
    have hkept : Text.dropBlanksEnd word <+: word := ⟨blanks, hsplit.symm⟩
    have hneed := cells_separate (hword.mono hkept.subset)
    have hspan := congrArg span hsplit
    rw [List.flatten_cons, span_append] at hroom
    rw [span_append] at hspan
    rw [fill_room (by omega), ih hwords (by rw [cells_separate hword]; omega), List.flatten_cons,
      List.append_assoc]

/-- A line that has room is printed as it is. -/
theorem wrap_of_room (overflow : Overflow) (hpositive : 0 < width) (hs : Solid s.toList)
    (hroom : cells s.toList ≤ width) : wrap overflow width s = [s] := by
  have hcells := cells_separate hs.separate
  have hlength := hs.length_le
  have hwords := flatten_stretches [] s.toList
  rw [List.reverse_nil, List.nil_append] at hwords
  have hseparate : ∀ w ∈ stretches [] s.toList, Separate w := fun w hw =>
    hs.separate.mono (hwords ▸ fun _ hc => List.mem_flatten_of_mem hw hc)
  have hfill : fill overflow width [] 0 (stretches [] s.toList) = [s.toList] := by
    rw [fill_of_room overflow hseparate (by rw [hwords]; omega), hwords, List.nil_append]
  have hcut : cutBlanks width s.toList = s.toList := by
    rw [cutBlanks]
    exact List.take_of_length_le (by omega)
  have htab : '\t' ∉ s.toList := hs.not_mem (by decide +kernel)
  have hline : '\n' ∉ s.toList := hs.not_mem (by decide +kernel)
  have hfit : fit overflow width s.toList = s.toList := by
    simp only [fit]
    exact if_pos hroom
  rw [wrap_of_pos hpositive, broken, splitOn_of_not_mem hline, List.flatMap_singleton,
    expandTabs_of_not_mem htab, List.reverse_nil, List.nil_append, hfill, List.map_singleton, hcut,
    List.map_singleton, hfit, String.ofList_toList]

/-- The characters that end a line take no room. -/
theorem Solid.not_endsLine (h : Solid cs) : ∀ c ∈ cs, Text.endsLine c = false := by
  have hflat : ∀ n ∈ [10, 11, 12, 13, 0x1c, 0x1d, 0x1e, 0x85, 0x2028, 0x2029],
      cellsOf (Char.ofNat n) = 0 := by
    decide +kernel
  intro c hc
  by_contra hends
  have hmem : c.toNat ∈ [10, 11, 12, 13, 0x1c, 0x1d, 0x1e, 0x85, 0x2028, 0x2029] := by
    simp [Text.endsLine] at hends ⊢
    omega
  have hnone := hflat c.toNat hmem
  rw [Char.ofNat_toNat] at hnone
  exact h.not_mem hnone hc

theorem linesFrom_of_solid (h : ∀ c ∈ cs, Text.endsLine c = false) (run : List Char) :
    Text.linesFrom run cs =
      if run.isEmpty && cs.isEmpty then [] else [String.ofList (run.reverse ++ cs)] := by
  fun_induction Text.linesFrom run cs with
  | case1 run hrun => simp [hrun]
  | case2 run hrun => simp [hrun]
  | case3 run rest ih => exact absurd (h '\r' List.mem_cons_self) (by decide)
  | case4 run c rest hne hends ih =>
    rw [h c List.mem_cons_self] at hends
    cases hends
  | case5 run c rest hne hends ih =>
    rw [ih fun d hd => h d (List.mem_cons_of_mem _ hd)]
    simp

theorem widthOf_of_solid (hs : Solid s.toList) : widthOf s = cells s.toList := by
  rw [widthOf, Text.lines, linesFrom_of_solid hs.not_endsLine]
  split
  · next hempty =>
    have hnone : s.toList = [] := by simpa using hempty
    rw [hnone]
    rfl
  · simp

/-- The ink of a text that a column shows, in which it is broken. -/
def inkIn (width : Nat) (s : String) : List Char := ink ((wrap .dots width s).flatMap String.toList)

/-- A column shows some of the ink of a text, in its order. -/
def ShowsPart (width : Nat) (s : String) : Prop := (inkIn width s).Sublist (ink s.toList)

/-- A column in which a text is broken keeps all its ink. -/
def Keeps (width : Nat) (s : String) : Prop := inkIn width s = ink s.toList

instance : DecidableRel Keeps := fun width s =>
  inferInstanceAs (Decidable (inkIn width s = ink s.toList))

/-- A column has room for a text: no line into which it is broken at its blanks is too wide. -/
def HasRoom (width : Nat) (s : String) : Prop :=
  (ink s.toList ≠ [] → 0 < width) ∧ ∀ line ∈ broken .dots width s, cells line ≤ width

instance : DecidableRel HasRoom := fun width s =>
  inferInstanceAs (Decidable
    ((ink s.toList ≠ [] → 0 < width) ∧ ∀ line ∈ broken .dots width s, cells line ≤ width))

section Keeps

theorem flatten_fill_dots (width : Nat) (line : List Char) (used : Nat) (words : List (List Char)) :
    (fill .dots width line used words).flatten = line ++ words.flatten := by
  have hbegun (line : List Char) (rest : List (List Char)) :
      ((if line.isEmpty then [] else [line]) ++ rest).flatten = line ++ rest.flatten := by
    cases line <;> simp
  induction words generalizing line used with
  | nil => simp [fill]
  | cons word words ih =>
    rw [fill]
    dsimp only
    split
    · rw [ih, List.flatten_cons, List.append_assoc]
    · rw [if_neg (by simp), hbegun, ih, List.flatten_cons]

theorem ink_cutBlanks (width : Nat) (line : List Char) : ink (cutBlanks width line) = ink line := by
  obtain ⟨n, hcut, hn⟩ := exists_cutBlanks width line
  rw [hcut, ink_take hn]

/-- A text that is broken at its blanks loses blanks only. -/
theorem ink_broken (width : Nat) (s : String) :
    (broken .dots width s).flatMap ink = ink s.toList := by
  rw [broken, List.flatMap_assoc, ← ink_splitOn]
  refine List.flatMap_congr fun part _ => ?_
  have hwhole := flatten_fill_dots width [] 0 (stretches [] (expandTabs 0 [] part))
  rw [List.nil_append, flatten_stretches, List.reverse_nil, List.nil_append] at hwhole
  have hink := congrArg ink hwhole
  rw [← List.flatMap_id, ink_flatMap, ink_expandTabs] at hink
  rw [List.flatMap_map, List.flatMap_congr fun line _ => ink_cutBlanks width line]
  exact hink

/-- Without any room only a text without ink keeps all its ink. -/
theorem hasRoom_zero (s : String) : HasRoom 0 s ↔ ink s.toList = [] := by
  refine ⟨fun h => by_contra fun hink => absurd (h.1 hink) (Nat.lt_irrefl 0), fun h => ?_⟩
  refine ⟨fun hink => absurd h hink, fun line hline => ?_⟩
  obtain ⟨part, hpart, hline⟩ := List.mem_flatMap.mp hline
  obtain ⟨filled, hfilled, rfl⟩ := List.mem_map.mp hline
  have hnone : ink filled = [] := by
    rw [← ink_cutBlanks 0]
    rw [← ink_broken 0] at h
    exact List.flatMap_eq_nil_iff.mp h _
      (List.mem_flatMap.mpr ⟨part, hpart, List.mem_map_of_mem hfilled⟩)
  have hblank : Text.dropBlanksEnd filled = [] := by
    refine List.reverse_eq_nil_iff.mpr (List.dropWhile_eq_nil_iff.mpr fun c hc => ?_)
    simpa using List.filter_eq_nil_iff.mp hnone c (List.mem_reverse.mp hc)
  have hcut : cutBlanks 0 filled = [] := by
    simp [cutBlanks, hblank]
  rw [hcut]
  exact Nat.le_refl 0

theorem inkIn_of_pos (hpositive : 0 < width) (s : String) :
    inkIn width s = (broken .dots width s).flatMap fun line => ink (fit .dots width line) := by
  rw [inkIn, wrap_of_pos hpositive, ink_flatMap, List.flatMap_map]
  simp only [String.toList_ofList]

theorem keeps_of_hasRoom (h : HasRoom width s) : Keeps width s := by
  rcases Nat.eq_zero_or_pos width with rfl | hpositive
  · exact ((hasRoom_zero s).mp h).symm
  · rw [Keeps, inkIn_of_pos hpositive, ← ink_broken width s]
    refine List.flatMap_congr fun line hline => ?_
    rw [fit, if_pos (h.2 line hline)]

/-- A column that shows no dots has cut no line. -/
theorem hasRoom_of_no_dots (hpositive : 0 < width) (h : '…' ∉ inkIn width s) : HasRoom width s := by
  refine ⟨fun _ => hpositive, fun line hline => by_contra fun hwide => h ?_⟩
  have hfit : '…' ∈ ink (fit .dots width line) := by
    rw [fit, if_neg hwide]
    exact List.mem_filter.mpr ⟨List.mem_append_right _ List.mem_cons_self, by decide +kernel⟩
  rw [inkIn_of_pos hpositive]
  exact List.mem_flatMap.mpr ⟨line, hline, hfit⟩

/-- A column keeps the ink of a text just when it has room for it. A text with dots can only seem to be
kept where they are the end of a line that is cut. -/
theorem keeps_iff (hdots : '…' ∉ s.toList) : Keeps width s ↔ HasRoom width s := by
  refine ⟨fun hkept => ?_, keeps_of_hasRoom⟩
  rcases Nat.eq_zero_or_pos width with rfl | hpositive
  · exact (hasRoom_zero s).mpr hkept.symm
  · rw [Keeps] at hkept
    exact hasRoom_of_no_dots hpositive fun hmem => hdots (List.mem_filter.mp (hkept ▸ hmem)).1

/-- Without dots a column shows all ink of a text or, when it has no cell, none. -/
theorem showsPart_of_no_dots (h : '…' ∉ inkIn width s) : ShowsPart width s := by
  rcases Nat.eq_zero_or_pos width with rfl | hpositive
  · exact List.nil_sublist _
  · have hkept : Keeps width s := keeps_of_hasRoom (hasRoom_of_no_dots hpositive h)
    rw [ShowsPart, hkept]

theorem forall₂_keeps_iff {widths : List Nat} {row : List String} (hdots : ∀ s ∈ row, '…' ∉ s.toList) :
    List.Forall₂ Keeps widths row ↔ List.Forall₂ HasRoom widths row := by
  induction row generalizing widths with
  | nil => cases widths <;> simp
  | cons s row ih =>
    obtain ⟨hfirst, hrest⟩ := List.forall_mem_cons.mp hdots
    cases widths with
    | nil => simp
    | cons width widths => rw [List.forall₂_cons, List.forall₂_cons, keeps_iff hfirst, ih hrest]

end Keeps

end Terminal

namespace Grid

variable {c : Console} {g : Grid} {rows : List (List String)} {row : List String} {widths : List Nat}
  {i n : Nat}

/-- The width that the cells of a column need. -/
def needed (rows : List (List String)) (i : Nat) : Nat :=
  ((rows.map fun row => row.getD i "").map Terminal.widthOf).foldl max 0

theorem needed_le : needed rows i ≤ n ↔ ∀ row ∈ rows, Terminal.widthOf (row.getD i "") ≤ n := by
  rw [needed, foldl_max_le, and_iff_right (Nat.zero_le n), List.forall_mem_map, List.forall_mem_map]

theorem widthOf_le_needed (h : row ∈ rows) (i : Nat) :
    Terminal.widthOf (row.getD i "") ≤ needed rows i :=
  needed_le.mp (Nat.le_refl _) row h

/-- What a column asks for with its padding, if it gets it. -/
def wish (rows : List (List String)) (c : Column) (i : Nat) : Nat :=
  padding + c.width.getD (needed rows i)

/-- Columns that have room together are as wide as they ask for. -/
theorem widths_of_room
    (h : total (g.columns.zipIdx.map fun (c, i) => wish rows c i) ≤ c.width - g.frame) :
    g.widths c rows = g.columns.zipIdx.map fun (c, i) => c.width.getD (needed rows i) := by
  have hasked : g.asking (c.width - g.frame) rows =
      g.columns.zipIdx.map fun (c, i) => (wish rows c i, c.width.isNone) := by
    refine List.map_congr_left fun p hp => congrArg (·, p.1.width.isNone) (Nat.min_eq_right ?_)
    refine Nat.le_trans ?_ h
    rw [total, ← List.sum_eq_foldl]
    exact List.le_sum_of_mem (List.mem_map_of_mem hp)
  have hfirst : (g.asking (c.width - g.frame) rows).map (·.1) =
      g.columns.zipIdx.map fun (c, i) => wish rows c i := by
    rw [hasked, List.map_map]
    rfl
  have houter : g.outerWidths c rows = g.columns.zipIdx.map fun (c, i) => wish rows c i := by
    rw [outerWidths, shrink_of_room (hfirst ▸ h), hfirst, Nat.sub_eq_zero_of_le h, reduce_zero,
      List.map_map]
    exact List.map_id _
  rw [widths, houter, List.map_map]
  exact List.map_congr_left fun p _ => Nat.add_sub_cancel_left _ _

/-- Texts that have room in columns of some widths. -/
def Fits (widths : List Nat) (row : List String) : Prop :=
  List.Forall₂ (fun width s => 0 < width ∧ Terminal.Solid s.toList ∧ Terminal.cells s.toList ≤ width)
    widths row

theorem beside_single (hrow : row ≠ []) :
    beside (row.map fun cell => [cell]) = ["  ".intercalate row] := by
  have hhigh : (row.map fun cell => [cell]).foldl (fun n cell => max n cell.length) 0 = 1 := by
    obtain ⟨first, others, rfl⟩ := List.exists_cons_of_ne_nil hrow
    rw [List.map_cons, List.foldl_cons, List.foldl_map]
    exact List.foldl_fixed' (fun _ => rfl) others
  rw [beside, hhigh, List.range_one, List.map_singleton, List.map_map]
  simp [Function.comp_def]

/-- A row whose cells have room is printed in one line. -/
theorem Fits.rowLines (h : Fits widths row) (hrow : row ≠ []) :
    rowLines widths row = ["  ".intercalate row] := by
  have hwraps : List.zipWith (Terminal.wrap .dots) widths row = row.map fun cell => [cell] := by
    clear hrow
    induction h with
    | nil => rfl
    | cons hcell _ ih =>
      rw [List.zipWith_cons_cons, Terminal.wrap_of_room .dots hcell.1 hcell.2.1 hcell.2.2, ih,
        List.map_cons]
  rw [Grid.rowLines, hwraps, beside_single hrow]

end Grid

end SchemaCompiler
