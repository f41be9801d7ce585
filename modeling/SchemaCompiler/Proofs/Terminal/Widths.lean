import Mathlib.Data.Finset.Card
import SchemaCompiler.Terminal.Report

/-!
The widths of the columns of a grid. Where the columns of given widths have room, all columns have room
together, and only the others become narrower.
-/
namespace SchemaCompiler

namespace Grid

variable {limit excess most room n : Nat} {shares : List (Nat × Nat)} {columns : List (Nat × Bool)}

theorem total_cons (width : Nat) (widths : List Nat) :
    total (width :: widths) = width + total widths := by
  have hfrom (n : Nat) : widths.foldl (· + ·) n = n + widths.foldl (· + ·) 0 := by
    induction widths generalizing n with
    | nil => rfl
    | cons w widths ih =>
      rw [List.foldl_cons, List.foldl_cons, ih, ih (0 + w)]
      omega
  rw [total, List.foldl_cons, hfrom, Nat.zero_add]
  rfl

section Reduce

/-- How many widths something may be taken from. -/
def sharers (shares : List (Nat × Nat)) : Nat := shares.countP (·.2 != 0)

theorem share_cases (excess n : Nat) : share excess n = excess / n ∨
    share excess n = excess / n + 1 ∧ n ≤ 2 * (excess % n) := by
  simp only [share]
  split
  · next hup =>
    refine .inr ⟨rfl, ?_⟩
    simp only [Bool.or_eq_true, decide_eq_true_eq, Bool.and_eq_true, beq_iff_eq] at hup
    omega
  · exact .inl rfl

theorem le_share (h : (n + 1) * most ≤ excess) : most ≤ share excess (n + 1) := by
  have hwhole : most ≤ excess / (n + 1) :=
    (Nat.le_div_iff_mul_le (Nat.succ_pos n)).mpr (Nat.mul_comm (n + 1) most ▸ h)
  rcases share_cases excess (n + 1) with hshare | ⟨hshare, _⟩
  all_goals omega

/-- What one of some sharers gives leaves no more than the others can give. -/
theorem sub_share_le (h : excess ≤ (n + 1) * most) :
    min most (share excess (n + 1)) ≤ excess ∧
      excess - min most (share excess (n + 1)) ≤ n * most := by
  have hcases := share_cases excess (n + 1)
  have hwhole := Nat.div_add_mod excess (n + 1)
  have hrest := Nat.mod_lt excess (Nat.succ_pos n)
  generalize excess / (n + 1) = whole at hcases hwhole
  generalize excess % (n + 1) = rest at hcases hwhole hrest
  rw [Nat.succ_mul] at h hwhole
  refine ⟨by omega, ?_⟩
  by_cases hless : most ≤ share excess (n + 1)
  · omega
  · have hmore : n * (whole + 1) ≤ n * most := Nat.mul_le_mul_left n (by omega)
    rw [Nat.mul_succ] at hmore
    omega

theorem reduce_skip (excess width : Nat) (shares : List (Nat × Nat)) :
    reduce excess ((width, 0) :: shares) = width :: reduce excess shares := rfl

theorem reduce_cons (excess width : Nat) (hmost : most ≠ 0) (shares : List (Nat × Nat)) :
    reduce excess ((width, most) :: shares) =
      let taken := min most (share excess (sharers shares + 1))
      (width - taken) :: reduce (excess - taken) shares := by
  rw [reduce, if_neg (by simpa using hmost), Nat.add_comm 1]
  rfl

theorem sharers_cons (width : Nat) (hmost : most ≠ 0) (shares : List (Nat × Nat)) :
    sharers ((width, most) :: shares) = sharers shares + 1 :=
  List.countP_cons_of_pos (by simpa using hmost)

/-- Where there is nothing to take, all widths stay. -/
theorem reduce_zero (shares : List (Nat × Nat)) : reduce 0 shares = shares.map (·.1) := by
  induction shares with
  | nil => rfl
  | cons s shares ih =>
    obtain ⟨width, most⟩ := s
    by_cases hmost : most = 0
    · rw [hmost, reduce_skip, ih, List.map_cons]
    · have hshare : min most (share 0 (sharers shares + 1)) = 0 := by simp [share]
      rw [reduce_cons 0 width hmost, hshare]
      exact congrArg (width :: ·) ih

/-- Where the widths cannot give enough, each gives what it can. -/
theorem reduce_of_scarce (hmost : ∀ s ∈ shares, s.2 = 0 ∨ s.2 = most)
    (h : sharers shares * most ≤ excess) :
    reduce excess shares = shares.map fun (width, most) => width - most := by
  induction shares generalizing excess with
  | nil => rfl
  | cons s shares ih =>
    obtain ⟨width, own⟩ := s
    obtain ⟨hown, hothers⟩ := List.forall_mem_cons.mp hmost
    by_cases hzero : own = 0
    · subst hzero
      exact congrArg (width :: ·) (ih hothers h)
    · obtain rfl : own = most := hown.resolve_left hzero
      rw [sharers_cons width hzero] at h
      have hmore : (sharers shares + 1) * own = sharers shares * own + own := Nat.succ_mul _ _
      rw [reduce_cons excess width hzero, Nat.min_eq_left (le_share h)]
      exact congrArg _ (ih hothers (by omega))

/-- Where the widths can give enough, they give just that. -/
theorem total_reduce (hmost : ∀ s ∈ shares, s.2 = 0 ∨ s.2 = most) (hown : ∀ s ∈ shares, s.2 ≤ s.1)
    (h : excess ≤ sharers shares * most) :
    total (reduce excess shares) + excess = total (shares.map (·.1)) := by
  induction shares generalizing excess with
  | nil =>
    rw [sharers, List.countP_nil, Nat.zero_mul] at h
    rw [Nat.le_zero.mp h]
    rfl
  | cons s shares ih =>
    obtain ⟨width, own⟩ := s
    obtain ⟨hfirst, hothers⟩ := List.forall_mem_cons.mp hmost
    obtain ⟨hwide, hwider⟩ := List.forall_mem_cons.mp hown
    by_cases hzero : own = 0
    · subst hzero
      have hrest := ih hothers hwider h
      rw [reduce_skip, List.map_cons, total_cons, total_cons]
      omega
    · obtain rfl : own = most := hfirst.resolve_left hzero
      rw [sharers_cons width hzero] at h
      obtain ⟨htaken, hleft⟩ := sub_share_le h
      have hrest := ih hothers hwider hleft
      rw [reduce_cons excess width hzero, List.map_cons]
      dsimp only at hwide ⊢
      rw [total_cons, total_cons]
      have hless := Nat.min_le_left own (share excess (sharers shares + 1))
      omega

end Reduce

section Widest

variable {l : List Nat}

theorem foldl_max_le {m : Nat} : l.foldl max n ≤ m ↔ n ≤ m ∧ ∀ a ∈ l, a ≤ m := by
  induction l generalizing n with
  | nil => simp
  | cons a l ih => rw [List.foldl_cons, ih, Nat.max_le, List.forall_mem_cons, and_assoc]

theorem widest_le {m : Nat} : widest l ≤ m ↔ ∀ a ∈ l, a ≤ m :=
  foldl_max_le.trans (and_iff_right (Nat.zero_le m))

theorem le_widest {a : Nat} (h : a ∈ l) : a ≤ widest l := widest_le.mp (Nat.le_refl _) a h

theorem widest_mem (h : widest l ≠ 0) : widest l ∈ l := by
  have hfrom (n : Nat) (l : List Nat) : l.foldl max n = n ∨ l.foldl max n ∈ l := by
    induction l generalizing n with
    | nil => exact .inl rfl
    | cons a l ih =>
      rw [List.foldl_cons]
      rcases ih (max n a) with hmax | hmem
      · rw [hmax]
        rcases Nat.le_total n a with hle | hle
        · rw [Nat.max_eq_right hle]
          exact .inr List.mem_cons_self
        · exact .inl (Nat.max_eq_left hle)
      · exact .inr (List.mem_cons_of_mem _ hmem)
  exact (hfrom 0 l).resolve_left h

end Widest

section Shrink

variable {c : Nat × Bool} {mark : Nat × Bool → Nat × Nat}

/-- The width of a column, if it is given. -/
def kept (c : Nat × Bool) : Option Nat := if c.2 then none else some c.1

theorem kept_eq_some {width : Nat} (h : kept c = some width) : c.1 = width := by
  rw [kept] at h
  split at h
  · cases h
  · exact Option.some.inj h

/-- The given widths. -/
def fixed (columns : List (Nat × Bool)) : List Nat := columns.filterMap kept

/-- The widths that may change. -/
def free (columns : List (Nat × Bool)) : List Nat := (columns.filter (·.2)).map (·.1)

theorem total_eq (columns : List (Nat × Bool)) :
    total (columns.map (·.1)) = total (fixed columns) + total (free columns) := by
  induction columns with
  | nil => rfl
  | cons c columns ih =>
    obtain ⟨width, isFree⟩ := c
    rw [List.map_cons, total_cons, ih]
    cases isFree with
    | false =>
      have hfixed : fixed ((width, false) :: columns) = width :: fixed columns := rfl
      have hfree : free ((width, false) :: columns) = free columns := rfl
      rw [hfixed, hfree, total_cons, Nat.add_assoc]
    | true =>
      have hfixed : fixed ((width, true) :: columns) = fixed columns := rfl
      have hfree : free ((width, true) :: columns) = width :: free columns := rfl
      rw [hfixed, hfree, total_cons, Nat.add_left_comm]

theorem total_of_zero {widths : List Nat} (h : ∀ w ∈ widths, w = 0) : total widths = 0 := by
  induction widths with
  | nil => rfl
  | cons w widths ih =>
    obtain ⟨rfl, hwidths⟩ := List.forall_mem_cons.mp h
    rw [total_cons, ih hwidths]

theorem length_reduce (excess : Nat) (shares : List (Nat × Nat)) :
    (reduce excess shares).length = shares.length := by
  induction shares generalizing excess with
  | nil => rfl
  | cons s shares ih =>
    obtain ⟨width, most⟩ := s
    by_cases hmost : most = 0
    · rw [hmost, reduce_skip, List.length_cons, ih, List.length_cons]
    · rw [reduce_cons excess width hmost, List.length_cons, ih, List.length_cons]

theorem map_kept_reduce (hwidth : ∀ c, (mark c).1 = c.1) (hfixed : ∀ c, c.2 = false → (mark c).2 = 0)
    (excess : Nat) (columns : List (Nat × Bool)) :
    ((reduce excess (columns.map mark)).zip (columns.map (·.2))).map kept = columns.map kept := by
  induction columns generalizing excess with
  | nil => rfl
  | cons c columns ih =>
    have hmark : mark c = (c.1, (mark c).2) := Prod.ext (hwidth c) rfl
    rw [List.map_cons, hmark]
    by_cases hzero : (mark c).2 = 0
    · rw [hzero, reduce_skip, List.map_cons, List.zip_cons_cons, List.map_cons, ih, List.map_cons]
    · have hfree : c.2 = true := Bool.eq_true_of_not_eq_false (mt (hfixed c) hzero)
      rw [reduce_cons excess c.1 hzero, List.map_cons, List.zip_cons_cons, List.map_cons, ih,
        List.map_cons, kept, kept, hfree]
      rfl

/-- The widest of the widths that may change, but for those that are as wide as the widest one. -/
def next (columns : List (Nat × Bool)) : Nat :=
  widest ((free columns).filter (· != widest (free columns)))

/-- What may be taken from a column in one round. -/
def mostOf (excess : Nat) (columns : List (Nat × Bool)) (c : Nat × Bool) : Nat :=
  if c.2 && c.1 == widest (free columns) then min excess (widest (free columns) - next columns) else 0

/-- The columns with what may be taken from each. -/
def marked (excess : Nat) (columns : List (Nat × Bool)) : List (Nat × Nat) :=
  columns.map fun c => (c.1, mostOf excess columns c)

theorem narrow_eq (excess : Nat) (columns : List (Nat × Bool)) :
    narrow excess columns = (reduce excess (marked excess columns)).zip (columns.map (·.2)) := rfl

theorem map_kept_narrow (excess : Nat) (columns : List (Nat × Bool)) :
    (narrow excess columns).map kept = columns.map kept := by
  have hfixed : ∀ c : Nat × Bool, c.2 = false → mostOf excess columns c = 0 := fun c hc => by
    simp [mostOf, hc]
  rw [narrow_eq, marked]
  exact map_kept_reduce (fun _ => rfl) hfixed excess columns

theorem fixed_eq (columns : List (Nat × Bool)) : fixed columns = (columns.map kept).filterMap id := by
  rw [List.filterMap_map]
  rfl

theorem fixed_narrow (excess : Nat) (columns : List (Nat × Bool)) :
    fixed (narrow excess columns) = fixed columns := by
  rw [fixed_eq, map_kept_narrow, ← fixed_eq]

/-- Columns of given widths stay as they are. -/
theorem map_kept_shrink (limit room : Nat) (columns : List (Nat × Bool)) :
    (shrink limit room columns).map kept = columns.map kept := by
  induction room generalizing columns with
  | zero => rfl
  | succ room ih =>
    rw [shrink]
    split
    · rfl
    · rw [ih, map_kept_narrow]

theorem shrink_of_room (h : total (columns.map (·.1)) ≤ limit) (room : Nat) :
    shrink limit room columns = columns := by
  cases room with
  | zero => rfl
  | succ room =>
    rw [shrink, Nat.sub_eq_zero_of_le h]
    rfl

theorem map_fst_narrow (excess : Nat) (columns : List (Nat × Bool)) :
    (narrow excess columns).map (·.1) = reduce excess (marked excess columns) := by
  rw [narrow_eq, List.map_fst_zip]
  rw [length_reduce, marked, List.length_map, List.length_map]

theorem mostOf_cases (excess : Nat) (columns : List (Nat × Bool)) : ∀ s ∈ marked excess columns,
    s.2 = 0 ∨ s.2 = min excess (widest (free columns) - next columns) := by
  refine List.forall_mem_map.mpr fun c _ => ?_
  rw [mostOf]
  split
  · exact .inr rfl
  · exact .inl rfl

/-- A round in which the widest columns can give enough leaves just room for all. -/
theorem total_narrow (h : excess ≤ sharers (marked excess columns) *
      min excess (widest (free columns) - next columns)) :
    total ((narrow excess columns).map (·.1)) + excess = total (columns.map (·.1)) := by
  have hown : ∀ s ∈ marked excess columns, s.2 ≤ s.1 := by
    refine List.forall_mem_map.mpr fun c _ => ?_
    rw [mostOf]
    split
    · next hwidest =>
      have hwide : c.1 = widest (free columns) := by simpa using (Bool.and_eq_true_iff.mp hwidest).2
      omega
    · exact Nat.zero_le _
  rw [map_fst_narrow, total_reduce (mostOf_cases excess columns) hown h, marked, List.map_map]
  rfl

theorem next_lt (h : widest (free columns) ≠ 0) : next columns < widest (free columns) := by
  by_cases hzero : next columns = 0
  · omega
  · obtain ⟨hmem, hne⟩ := List.mem_filter.mp (widest_mem hzero)
    exact Nat.lt_of_le_of_ne (le_widest hmem) (bne_iff_ne.mp hne)

theorem sharers_pos (hexcess : excess ≠ 0) (h : widest (free columns) ≠ 0) :
    0 < sharers (marked excess columns) := by
  obtain ⟨c, hc, hwide⟩ := List.mem_map.mp (widest_mem h)
  obtain ⟨hc, hfree⟩ := List.mem_filter.mp hc
  change c.1 = widest (free columns) at hwide
  refine List.countP_pos_iff.mpr ⟨_, List.mem_map_of_mem hc, ?_⟩
  have hless := next_lt h
  have hmost : mostOf excess columns c ≠ 0 := by
    rw [mostOf, hfree, hwide, beq_self_eq_true, Bool.and_self, if_pos rfl]
    omega
  simpa using hmost

/-- In a round in which the widest columns cannot give enough they become as wide as the next ones. -/
theorem free_narrow (h : sharers (marked excess columns) *
      min excess (widest (free columns) - next columns) < excess) (htop : widest (free columns) ≠ 0) :
    free (narrow excess columns) =
      (free columns).map fun w => if w == widest (free columns) then next columns else w := by
  have hless := next_lt htop
  have hpositive := sharers_pos (Nat.ne_of_gt (Nat.zero_lt_of_lt h)) htop
  have hmost : min excess (widest (free columns) - next columns) =
      widest (free columns) - next columns := by
    have hone := Nat.mul_le_mul_right (min excess (widest (free columns) - next columns)) hpositive
    omega
  have hnarrow : narrow excess columns =
      columns.map fun c => (c.1 - mostOf excess columns c, c.2) := by
    rw [narrow_eq, reduce_of_scarce (mostOf_cases excess columns) (Nat.le_of_lt h), marked, List.map_map,
      List.zip_map']
    rfl
  rw [hnarrow, free, free, List.filter_map, List.map_map, List.map_map]
  refine List.map_congr_left fun c hc => ?_
  have hfree : c.2 = true := (List.mem_filter.mp hc).2
  change c.1 - mostOf excess columns c = if c.1 == widest (free columns) then next columns else c.1
  rw [mostOf, hfree, hmost, Bool.true_and]
  split
  · next hwidest =>
    have hwide : c.1 = widest (free columns) := by simpa using hwidest
    omega
  · exact Nat.sub_zero _

/-- The widths that may change, each once. -/
def levels (columns : List (Nat × Bool)) : Finset Nat := (free columns).toFinset.erase 0

theorem card_levels_narrow (h : sharers (marked excess columns) *
      min excess (widest (free columns) - next columns) < excess) (htop : widest (free columns) ≠ 0) :
    (levels (narrow excess columns)).card < (levels columns).card := by
  have hmem : widest (free columns) ∈ levels columns :=
    Finset.mem_erase.mpr ⟨htop, List.mem_toFinset.mpr (widest_mem htop)⟩
  have hless := next_lt htop
  have hsubset : levels (narrow excess columns) ⊆ (levels columns).erase (widest (free columns)) := by
    intro w hw
    obtain ⟨hzero, hw⟩ := Finset.mem_erase.mp hw
    rw [List.mem_toFinset, free_narrow h htop] at hw
    obtain ⟨v, hv, rfl⟩ := List.mem_map.mp hw
    split at hzero
    · next hwidest =>
      rw [if_pos hwidest]
      have hnext := (List.mem_filter.mp (widest_mem hzero)).1
      exact Finset.mem_erase.mpr ⟨Nat.ne_of_lt hless,
        Finset.mem_erase.mpr ⟨hzero, List.mem_toFinset.mpr hnext⟩⟩
    · next hwidest =>
      rw [if_neg hwidest]
      exact Finset.mem_erase.mpr ⟨by simpa using hwidest,
        Finset.mem_erase.mpr ⟨hzero, List.mem_toFinset.mpr hv⟩⟩
  exact (Finset.card_le_card hsubset).trans_lt (Finset.card_erase_lt_of_mem hmem)

/-- All columns have room together if those of given widths have. -/
theorem total_shrink_le (hfixed : total (fixed columns) ≤ limit)
    (hroom : (levels columns).card ≤ room) :
    total ((shrink limit room columns).map (·.1)) ≤ limit := by
  have hflat {columns : List (Nat × Bool)} (hfixed : total (fixed columns) ≤ limit)
      (hzero : ∀ w ∈ free columns, w = 0) : total (columns.map (·.1)) ≤ limit := by
    rw [total_eq, total_of_zero hzero]
    exact hfixed
  induction room generalizing columns with
  | zero =>
    refine hflat hfixed fun w hw => by_contra fun hne => ?_
    have hlevel : w ∈ levels columns := Finset.mem_erase.mpr ⟨hne, List.mem_toFinset.mpr hw⟩
    rw [Finset.card_eq_zero.mp (Nat.le_zero.mp hroom)] at hlevel
    exact absurd hlevel (Finset.notMem_empty w)
  | succ room ih =>
    rw [shrink]
    split
    · next hdone => exact Nat.le_of_sub_eq_zero (by simpa using hdone)
    · next hmore =>
      have hexcess : total (columns.map (·.1)) - limit ≠ 0 := by simpa using hmore
      have htop : widest (free columns) ≠ 0 := fun hzero =>
        hexcess (Nat.sub_eq_zero_of_le (hflat hfixed fun w hw =>
          Nat.le_zero.mp (hzero ▸ le_widest hw)))
      by_cases henough : total (columns.map (·.1)) - limit ≤
          sharers (marked (total (columns.map (·.1)) - limit) columns) *
            min (total (columns.map (·.1)) - limit) (widest (free columns) - next columns)
      · have htotal := total_narrow henough
        have hfits : total ((narrow (total (columns.map (·.1)) - limit) columns).map (·.1)) ≤ limit := by
          omega
        rw [shrink_of_room hfits]
        exact hfits
      · refine ih ?_ ?_
        · rwa [fixed_narrow]
        · have hfewer := card_levels_narrow (Nat.lt_of_not_le henough) htop
          omega

end Shrink

variable {c : Console} {g : Grid} {rows : List (List String)}

theorem length_asking (limit : Nat) (g : Grid) (rows : List (List String)) :
    (g.asking limit rows).length = g.columns.length := by
  rw [asking, List.length_map, List.length_zipIdx]

theorem card_levels_le (columns : List (Nat × Bool)) : (levels columns).card ≤ columns.length := by
  calc (levels columns).card
      ≤ (free columns).toFinset.card := Finset.card_le_card (Finset.erase_subset _ _)
    _ ≤ (free columns).length := List.toFinset_card_le _
    _ ≤ columns.length := by
      rw [free, List.length_map]
      exact List.length_filter_le _ _

theorem length_widths (c : Console) (g : Grid) (rows : List (List String)) :
    (g.widths c rows).length = g.columns.length := by
  have hshrunk := congrArg List.length (map_kept_shrink (c.width - g.frame) (g.columns.length + 1)
    (g.asking (c.width - g.frame) rows))
  rw [List.length_map, List.length_map, length_asking] at hshrunk
  rw [widths, List.length_map, outerWidths, length_reduce, List.length_map, List.length_map, hshrunk]

/-- Where the columns of given widths have room, no column gives up more than its share. -/
theorem outerWidths_eq (hfixed : total (fixed (g.asking (c.width - g.frame) rows)) ≤ c.width - g.frame) :
    g.outerWidths c rows = (shrink (c.width - g.frame) (g.columns.length + 1)
      (g.asking (c.width - g.frame) rows)).map (·.1) ∧
    total (g.outerWidths c rows) ≤ c.width - g.frame := by
  have hlevels := card_levels_le (g.asking (c.width - g.frame) rows)
  rw [length_asking] at hlevels
  have hroom := total_shrink_le hfixed (hlevels.trans (Nat.le_succ _))
  have houter : g.outerWidths c rows = (shrink (c.width - g.frame) (g.columns.length + 1)
      (g.asking (c.width - g.frame) rows)).map (·.1) := by
    rw [outerWidths, Nat.sub_eq_zero_of_le hroom, reduce_zero, List.map_map]
    exact List.map_id _
  exact ⟨houter, houter ▸ hroom⟩

end Grid

/-- On a console of some width the codes and the severities of a report have all their room. -/
theorem Report.exists_widths {c : Console} (hwide : 23 ≤ c.width) (r : Report)
    (rows : List (List String)) : ∃ place message,
      r.table.widths c rows = [6, 8, place - 2, message - 2] ∧ place + message + 23 ≤ c.width := by
  have hframe : r.table.frame = 5 := rfl
  have hkept : (r.table.asking (c.width - 5) rows).map Grid.kept = [some 8, some 10, none, none] := by
    have hcode : min (c.width - 5) 8 = 8 := by omega
    have hseverity : min (c.width - 5) 10 = 10 := by omega
    simp [Grid.asking, table, Grid.kept, Grid.asked, Grid.padding, hcode, hseverity]
  have hfixed : Grid.fixed (r.table.asking (c.width - 5) rows) = [8, 10] := by
    rw [Grid.fixed_eq, hkept]
    rfl
  have hroom : Grid.total (Grid.fixed (r.table.asking (c.width - r.table.frame) rows)) ≤
      c.width - r.table.frame := by
    rw [hframe, hfixed]
    change 18 ≤ c.width - 5
    omega
  obtain ⟨houter, htotal⟩ := Grid.outerWidths_eq hroom
  have hshrunk := Grid.map_kept_shrink (c.width - 5) (r.table.columns.length + 1)
    (r.table.asking (c.width - 5) rows)
  rw [hframe] at houter htotal
  rw [hkept] at hshrunk
  generalize Grid.shrink (c.width - 5) (r.table.columns.length + 1)
    (r.table.asking (c.width - 5) rows) = shrunk at houter hshrunk
  obtain ⟨code, shrunk, rfl, hcode, hshrunk⟩ := List.map_eq_cons_iff.mp hshrunk
  obtain ⟨severity, shrunk, rfl, hseverity, hshrunk⟩ := List.map_eq_cons_iff.mp hshrunk
  obtain ⟨place, shrunk, rfl, -, hshrunk⟩ := List.map_eq_cons_iff.mp hshrunk
  obtain ⟨message, shrunk, rfl, -, hshrunk⟩ := List.map_eq_cons_iff.mp hshrunk
  obtain rfl : shrunk = [] := List.map_eq_nil_iff.mp hshrunk
  have houter : r.table.outerWidths c rows = [8, 10, place.1, message.1] := by
    rw [houter, List.map_cons, List.map_cons, Grid.kept_eq_some hcode, Grid.kept_eq_some hseverity]
    rfl
  have htotal : 8 + (10 + (place.1 + message.1)) ≤ c.width - 5 := by
    rw [houter, Grid.total_cons, Grid.total_cons, Grid.total_cons, Grid.total_cons] at htotal
    exact htotal
  refine ⟨place.1, message.1, ?_, by omega⟩
  rw [Grid.widths, houter]
  rfl

end SchemaCompiler
