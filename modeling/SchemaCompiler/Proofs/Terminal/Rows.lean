import Mathlib.Data.List.Perm.Basic
import SchemaCompiler.Proofs.Terminal.Columns

/-!
Rows of a grid, whose cells stand side by side. The lines of a row have the ink that its columns show, line
by line and not text by text. So a row has all ink of its texts just when its columns have room for them.
-/
namespace SchemaCompiler.Grid

open Terminal (ink inkIn ink_append ink_flatMap HasRoom Keeps ShowsPart)

variable {widths : List Nat} {row : List String}

theorem ink_intercalate (cells : List String) :
    ink ("  ".intercalate cells).toList = cells.flatMap fun s => ink s.toList := by
  rw [String.toList_intercalate]
  induction cells with
  | nil => rfl
  | cons s cells ih =>
    cases cells with
    | nil => simp
    | cons t cells =>
      have hblanks : ink "  ".toList = [] := by decide
      rw [List.map_cons, List.map_cons, List.intercalate_cons_cons, ← List.map_cons, ink_append,
        ink_append, hblanks, List.append_nil, ih]
      rfl

/-- The lines of a cell, one after the other, as far as a row has lines. -/
theorem flatMap_getD {cell : List String} {n : Nat} (h : cell.length ≤ n) :
    ((List.range n).flatMap fun i => ink (cell.getD i "").toList) =
      ink (cell.flatMap String.toList) := by
  induction cell generalizing n with
  | nil =>
    refine List.flatMap_eq_nil_iff.mpr fun i _ => ?_
    rw [List.getD_nil]
    rfl
  | cons line cell ih =>
    obtain ⟨n, rfl⟩ := Nat.exists_eq_add_of_lt (Nat.lt_of_lt_of_le (Nat.succ_pos _) h)
    rw [Nat.zero_add, List.range_succ_eq_map, List.flatMap_cons, List.flatMap_map, List.flatMap_cons,
      ink_append]
    exact congrArg _ (ih (by simpa using h))

/-- Cells side by side have the ink that they have one after the other. -/
theorem ink_beside (cells : List (List String)) : (ink ((beside cells).flatMap String.toList)).Perm
    (cells.flatMap fun cell => ink (cell.flatMap String.toList)) := by
  have hhigh : ∀ cell ∈ cells, cell.length ≤ cells.foldl (fun n cell => max n cell.length) 0 := by
    have hmost := (foldl_max_le (l := cells.map List.length) (n := 0)).mp (Nat.le_refl _)
    rw [List.forall_mem_map, List.foldl_map] at hmost
    exact hmost.2
  rw [beside, ink_flatMap, List.flatMap_map]
  generalize cells.foldl (fun n cell => max n cell.length) 0 = n at hhigh
  simp only [ink_intercalate, List.flatMap_map]
  induction cells with
  | nil => simp
  | cons cell cells ih =>
    obtain ⟨hcell, hcells⟩ := List.forall_mem_cons.mp hhigh
    simp only [List.flatMap_cons]
    rw [← flatMap_getD hcell]
    exact (List.flatMap_append_perm _ _ _).symm.trans ((ih hcells).append_left _)

/-- The lines of a row have all ink of its texts, though the texts stand side by side. -/
def Holds (widths : List Nat) (row : List String) : Prop :=
  (ink ((rowLines widths row).flatMap String.toList)).Perm (row.flatMap fun s => ink s.toList)

instance : DecidableRel Holds := fun _ _ => List.decidablePerm _ _

/-- A row has the ink that its columns show. -/
theorem ink_rowLines (widths : List Nat) (row : List String) :
    (ink ((rowLines widths row).flatMap String.toList)).Perm (List.zipWith inkIn widths row).flatten := by
  have hcells : List.zipWith inkIn widths row =
      (List.zipWith (Terminal.wrap .dots) widths row).map fun cell => ink (cell.flatMap String.toList) := by
    rw [List.map_zipWith]
    rfl
  rw [hcells, ← List.flatMap_def]
  exact ink_beside _

/-- What columns show of a row is part of its ink when each of them shows a part of its text. -/
theorem shown_sublist (h : List.Forall₂ ShowsPart widths row) :
    (List.zipWith inkIn widths row).flatten.Sublist (row.flatMap fun s => ink s.toList) := by
  induction h with
  | nil => exact List.Sublist.refl _
  | cons hcell _ ih => exact hcell.append ih

/-- Columns that show parts of their texts have left nothing out when together they show as much. -/
theorem keeps_of_length (h : List.Forall₂ ShowsPart widths row)
    (hall : (List.zipWith inkIn widths row).flatten.length =
      (row.flatMap fun s => ink s.toList).length) : List.Forall₂ Keeps widths row := by
  induction h with
  | nil => exact .nil
  | cons hcell hcells ih =>
    have hfirst := hcell.length_le
    have hothers := (shown_sublist hcells).length_le
    rw [List.zipWith_cons_cons, List.flatten_cons, List.flatMap_cons, List.length_append,
      List.length_append] at hall
    exact .cons (hcell.eq_of_length (by omega)) (ih (by omega))

theorem shown_of_keeps (h : List.Forall₂ Keeps widths row) :
    (List.zipWith inkIn widths row).flatten = row.flatMap fun s => ink s.toList := by
  induction h with
  | nil => rfl
  | cons hcell _ ih => exact congrArg₂ (· ++ ·) hcell ih

/-- A row holds its texts just when its columns have room for them. Texts with dots can seem to be held
where a line ends in dots because it is cut. -/
theorem holds_iff (hlength : widths.length = row.length) (hdots : ∀ s ∈ row, '…' ∉ s.toList) :
    Holds widths row ↔ List.Forall₂ HasRoom widths row := by
  have hshown := ink_rowLines widths row
  constructor
  · intro hholds
    have hperm := hshown.symm.trans hholds
    have hnone : '…' ∉ (List.zipWith inkIn widths row).flatten := by
      rw [hperm.mem_iff]
      intro hmem
      obtain ⟨s, hs, hdot⟩ := List.mem_flatMap.mp hmem
      exact hdots s hs (List.mem_filter.mp hdot).1
    have hparts : List.Forall₂ ShowsPart widths row := by
      refine List.forall₂_iff_zip.mpr ⟨hlength, fun hcell => Terminal.showsPart_of_no_dots fun hdot => ?_⟩
      refine hnone (List.mem_flatten_of_mem ?_ hdot)
      rw [← List.map_uncurry_zip_eq_zipWith]
      exact List.mem_map_of_mem hcell
    exact (Terminal.forall₂_keeps_iff hdots).mp (keeps_of_length hparts hperm.length_eq)
  · intro hroom
    have hkept := hroom.imp fun width s => Terminal.keeps_of_hasRoom
    exact hshown.trans (List.Perm.of_eq (shown_of_keeps hkept))

end SchemaCompiler.Grid
