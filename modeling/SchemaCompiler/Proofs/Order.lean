import Mathlib.Data.List.Sort
import Mathlib.Data.String.Basic
import SchemaCompiler.Declaration

/-!
Sorting by name. Names that are sorted and listed once each are in strict order, and so the order in
which they came does not matter.
-/
namespace SchemaCompiler

variable {α : Type} {names names' : List String} {name : String}

theorem decide_le_trans (key : α → String) (a b c : α) (hab : decide (key a ≤ key b))
    (hbc : decide (key b ≤ key c)) : decide (key a ≤ key c) :=
  decide_eq_true (le_trans (of_decide_eq_true hab) (of_decide_eq_true hbc))

theorem decide_le_total (key : α → String) (a b : α) :
    decide (key a ≤ key b) || decide (key b ≤ key a) := by
  simpa using le_total (key a) (key b)

theorem pairwise_mergeSort_le (key : α → String) (xs : List α) :
    (xs.mergeSort (key · ≤ key ·)).Pairwise (key · ≤ key ·) :=
  (List.pairwise_mergeSort (decide_le_trans key) (decide_le_total key) xs).imp fun hab =>
    of_decide_eq_true hab

theorem eraseDups_spec [BEq α] [LawfulBEq α] (xs : List α) :
    xs.eraseDups.Sublist xs ∧ xs.eraseDups.Nodup := by
  induction hn : xs.length using Nat.strong_induction_on generalizing xs with
  | _ n ih =>
    subst hn
    cases xs with
    | nil => simp
    | cons x rest =>
      rw [List.eraseDups_cons]
      obtain ⟨hsub, hnodup⟩ := ih _ (Nat.lt_succ_of_le (List.length_filter_le _ rest)) _ rfl
      refine ⟨(hsub.trans List.filter_sublist).cons_cons x, List.nodup_cons.mpr ⟨?_, hnodup⟩⟩
      simp

theorem mem_sortNames : name ∈ sortNames names ↔ name ∈ names := by
  rw [sortNames, List.mem_eraseDups]
  exact (List.mergeSort_perm names _).mem_iff

theorem sortNames_sorted : (sortNames names).Pairwise (· < ·) := by
  obtain ⟨hsub, hnodup⟩ := eraseDups_spec names.mergeSort
  have hle : (sortNames names).Pairwise (· ≤ ·) := (pairwise_mergeSort_le id names).sublist hsub
  exact (hle.and hnodup).imp fun h => lt_of_le_of_ne h.1 h.2

/-- Only what is among the names counts. -/
theorem sortNames_congr (h : ∀ name, name ∈ names ↔ name ∈ names') :
    sortNames names = sortNames names' := by
  refine sortNames_sorted.eq_of_mem_iff sortNames_sorted fun name => ?_
  rw [mem_sortNames, mem_sortNames, h]

theorem sortNames_eq_self (h : names.Pairwise (· < ·)) : sortNames names = names :=
  sortNames_sorted.eq_of_mem_iff h fun _ => mem_sortNames

/-- Lists of the same elements, in which those that share a key come in the same order. -/
def Rearranged {κ : Type} [BEq κ] (key : α → κ) (xs ys : List α) : Prop :=
  ∀ k, xs.filter (key · == k) = ys.filter (key · == k)

namespace Rearranged

variable {β κ : Type} [BEq κ] {key : α → κ} {xs ys : List α}

/-- What keeps the keys keeps an arrangement. -/
theorem filterMap {key' : β → κ} {keyOf : α → Option κ} {f : α → Option β}
    (h : Rearranged keyOf xs ys) (hf : ∀ x y, f x = some y → keyOf x = some (key' y)) :
    Rearranged key' (xs.filterMap f) (ys.filterMap f) := by
  have hcomm (k : κ) (zs : List α) : (zs.filterMap f).filter (key' · == k) =
      (zs.filter (keyOf · == some k)).filterMap f := by
    rw [List.filter_filterMap, List.filterMap_filter]
    refine List.filterMap_congr fun z _ => ?_
    cases hz : f z with
    | none => simp
    | some y =>
      have hkey : (keyOf z == some k) = (key' y == k) := by
        rw [hf z y hz]
        rfl
      rw [hkey]
      rfl
  intro k
  rw [hcomm, hcomm, h]

variable [LawfulBEq κ]

theorem mem_iff (h : Rearranged key xs ys) {x : α} : x ∈ xs ↔ x ∈ ys := by
  have hx := congrArg (x ∈ ·) (h (key x))
  simpa [List.mem_filter] using hx

/-- Elements with different keys can come in any order. -/
theorem of_perm (hp : xs.Perm ys) (hn : (xs.map key).Nodup) : Rearranged key xs ys := by
  intro k
  have hf := hp.filter (key · == k)
  have hkey : ∀ x ∈ xs.filter (key · == k), key x = k := fun x hx => by
    simpa using (List.mem_filter.mp hx).2
  have hfew : ((xs.filter (key · == k)).map key).Nodup := hn.sublist (List.filter_sublist.map key)
  cases hxs : xs.filter (key · == k) with
  | nil =>
    rw [hxs] at hf
    exact (List.nil_perm.mp hf).symm
  | cons x rest =>
    cases rest with
    | nil =>
      rw [hxs] at hf
      exact (List.singleton_perm.mp hf)
    | cons y rest =>
      rw [hxs] at hkey hfew
      have hxy : key x = key y := (hkey x (by simp)).trans (hkey y (by simp)).symm
      simp [hxy] at hfew

end Rearranged

/-- Sorting keeps the order of what shares a key. -/
theorem filter_mergeSort (key : α → String) (xs : List α) (k : String) :
    (xs.mergeSort (key · ≤ key ·)).filter (key · == k) = xs.filter (key · == k) := by
  have hsame : (xs.filter (key · == k)).Pairwise fun a b => decide (key a ≤ key b) := by
    refine List.pairwise_of_forall_mem_list fun a ha b hb => decide_eq_true ?_
    rw [eq_of_beq (List.mem_filter.mp ha).2, eq_of_beq (List.mem_filter.mp hb).2]
  have hsub := List.sublist_mergeSort (decide_le_trans key) (decide_le_total key) hsame
    List.filter_sublist
  have hkept := hsub.filter (key · == k)
  rw [List.filter_filter] at hkept
  simp only [Bool.and_self] at hkept
  exact (hkept.eq_of_length (((List.mergeSort_perm xs _).filter _).length_eq).symm).symm

theorem eq_of_sorted {key : α → String} {xs ys : List α} (h : Rearranged key xs ys)
    (hx : xs.Pairwise (key · ≤ key ·)) (hy : ys.Pairwise (key · ≤ key ·)) : xs = ys := by
  induction xs generalizing ys with
  | nil =>
    cases ys with
    | nil => rfl
    | cons y ys => exact absurd (h.mem_iff.mpr List.mem_cons_self) List.not_mem_nil
  | cons x xs ih =>
    cases ys with
    | nil => exact absurd (h.mem_iff.mp List.mem_cons_self) List.not_mem_nil
    | cons y ys =>
      obtain ⟨hxs, hxrest⟩ := List.pairwise_cons.mp hx
      obtain ⟨hys, hyrest⟩ := List.pairwise_cons.mp hy
      -- Each head is among the other elements, so both have the least key.
      have hyx : key y ≤ key x := by
        rcases List.mem_cons.mp (h.mem_iff.mp List.mem_cons_self) with heq | hmem
        · exact (congrArg key heq).ge
        · exact hys x hmem
      have hxy : key x ≤ key y := by
        rcases List.mem_cons.mp (h.mem_iff.mpr List.mem_cons_self) with heq | hmem
        · exact (congrArg key heq).ge
        · exact hxs y hmem
      have hkey : key x = key y := le_antisymm hxy hyx
      have hhead := h (key x)
      simp only [List.filter_cons, beq_self_eq_true, if_true, hkey] at hhead
      obtain ⟨rfl, _⟩ := List.cons.inj hhead
      refine congrArg (x :: ·) (ih (fun k => ?_) hxrest hyrest)
      have hk := h k
      rw [List.filter_cons, List.filter_cons] at hk
      split at hk
      · exact (List.cons.inj hk).2
      · exact hk

/-- Sorting undoes a rearrangement. -/
theorem Rearranged.mergeSort_eq {key : α → String} {xs ys : List α} (h : Rearranged key xs ys) :
    xs.mergeSort (key · ≤ key ·) = ys.mergeSort (key · ≤ key ·) := by
  refine eq_of_sorted (fun k => ?_) (pairwise_mergeSort_le key xs) (pairwise_mergeSort_le key ys)
  rw [filter_mergeSort, filter_mergeSort, h]

end SchemaCompiler
