import Mathlib.Data.String.Basic
import SchemaCompiler.Naming

/-!
Module names. Lower case shortens no text and puts no slash into one, and so a longer name has no
shorter module, and the module of a name without slashes has none. On ASCII it is lower case as usual.
-/
namespace SchemaCompiler

namespace Text

theorem toNat_ofNat_le (n : Nat) : (Char.ofNat n).toNat = n ∨ Char.ofNat n = Char.ofNat 0 := by
  by_cases h : n.isValidChar
  · refine .inl ?_
    rw [Char.ofNat, dif_pos h]
    rfl
  · refine .inr ?_
    rw [Char.ofNat, dif_neg h]
    rfl

/-- Only a slash has the lower case form of a slash: all letters are moved to places above it. -/
theorem shiftCase_lower_ne_slash {c : Char} (h : c ≠ '/') : shiftCase lowerRanges c ≠ '/' := by
  rw [shiftCase]
  split
  · next range hfound =>
    have habove : ∀ range ∈ lowerRanges.toList, 47 < (range.first : Int) + range.shift := by
      decide +kernel
    have hcovers := Array.find?_some hfound
    have hrange := habove range (Array.mem_of_find?_eq_some hfound).val
    simp only [CaseRange.covers, Bool.and_eq_true, decide_eq_true_eq] at hcovers
    intro hslash
    rcases toNat_ofNat_le (c.toNat + range.shift).toNat with hcode | hnul
    · rw [hslash] at hcode
      have : ('/' : Char).toNat = 47 := rfl
      omega
    · rw [hslash] at hnul
      exact absurd hnul (by decide)
  · exact h

/-- Each character is lowered to one of its own, or to two in one case. No slash comes from another
character. -/
theorem lowerAfter_cons (before : List Char) (c : Char) (rest : List Char) :
    ∃ low, lowerAfter before (c :: rest) = low ++ lowerAfter (c :: before) rest ∧
      low.length = [c].length + [c].count 'İ' ∧ (c ≠ '/' → '/' ∉ low) := by
  rw [lowerAfter]
  refine ⟨_, rfl, ?_⟩
  by_cases hsigma : c = 'Σ'
  · subst hsigma
    cases meetsCased before && !meetsCased rest <;> decide
  · by_cases hdotted : c = 'İ'
    · rw [if_neg (by simpa using hsigma), if_pos (by simpa using hdotted), hdotted]
      decide
    · rw [if_neg (by simpa using hsigma), if_neg (by simpa using hdotted),
        List.count_singleton, if_neg (by simpa using hdotted)]
      exact ⟨rfl, fun h heq => shiftCase_lower_ne_slash h (List.mem_singleton.mp heq).symm⟩

theorem length_lowerAfter (before cs : List Char) :
    (lowerAfter before cs).length = cs.length + cs.count 'İ' := by
  induction cs generalizing before with
  | nil => rfl
  | cons c rest ih =>
    obtain ⟨low, heq, hlength, _⟩ := lowerAfter_cons before c rest
    rw [← List.singleton_append, List.length_append, List.count_append, List.singleton_append, heq,
      List.length_append, hlength, ih]
    omega

theorem slash_not_mem_lowerAfter {before cs : List Char} (h : '/' ∉ cs) :
    '/' ∉ lowerAfter before cs := by
  induction cs generalizing before with
  | nil => exact h
  | cons c rest ih =>
    obtain ⟨low, heq, _, hlow⟩ := lowerAfter_cons before c rest
    obtain ⟨hc, hrest⟩ := not_or.mp (mt List.mem_cons.mpr h)
    rw [heq, List.mem_append, not_or]
    exact ⟨hlow (Ne.symm hc), ih hrest⟩

/-- The first range of the table has the capitals of ASCII, and all others lie above ASCII. -/
theorem shiftCase_of_ascii {c : Char} (h : c.toNat < 128) : shiftCase lowerRanges c = c.toLower := by
  have hothers : ∀ range ∈ lowerRanges.toList.tail, 128 ≤ range.first := by decide +kernel
  have hranges : lowerRanges.toList = ⟨0x41, 0x5a, 1, 32⟩ :: lowerRanges.toList.tail := rfl
  have hnone : lowerRanges.toList.tail.find? (·.covers c.toNat) = none := by
    refine List.find?_eq_none.mpr fun range hrange hcovers => ?_
    have hfirst := hothers range hrange
    simp only [CaseRange.covers, Bool.and_eq_true, decide_eq_true_eq] at hcovers
    omega
  have hcovers : CaseRange.covers ⟨0x41, 0x5a, 1, 32⟩ c.toNat =
      decide (65 ≤ c.toNat ∧ c.toNat ≤ 90) := by
    simp [CaseRange.covers, Nat.mod_one]
  rw [shiftCase, ← Array.find?_toList, hranges, List.find?_cons, hnone, hcovers]
  by_cases hc : 65 ≤ c.toNat ∧ c.toNat ≤ 90
  · have hletters : ∀ k < 26, Char.ofNat (65 + k + 32) = (Char.ofNat (65 + k)).toLower := by decide
    obtain ⟨k, hk⟩ := Nat.exists_eq_add_of_le hc.1
    have hletter := hletters k (by omega)
    rw [← hk, Char.ofNat_toNat] at hletter
    rw [decide_eq_true hc]
    exact hletter
  · have hsmall : ¬ ('A'.val ≤ c.val ∧ c.val ≤ 'Z'.val) := by
      rwa [UInt32.le_iff_toNat_le, UInt32.le_iff_toNat_le]
    have hlower : c.toLower = c := dif_neg hsmall
    rw [decide_eq_false hc, hlower]

theorem lowerAfter_of_ascii {before cs : List Char} (h : ∀ c ∈ cs, c.toNat < 128) :
    lowerAfter before cs = cs.map Char.toLower := by
  induction cs generalizing before with
  | nil => rfl
  | cons c rest ih =>
    obtain ⟨hc, hrest⟩ := List.forall_mem_cons.mp h
    have hsigma : (c == 'Σ') = false := by
      refine beq_false_of_ne ?_
      rintro rfl
      exact absurd hc (by decide)
    have hdotted : (c == 'İ') = false := by
      refine beq_false_of_ne ?_
      rintro rfl
      exact absurd hc (by decide)
    rw [lowerAfter, hsigma, hdotted, ih hrest, shiftCase_of_ascii hc]
    rfl

end Text

namespace Naming

open Text (length_lowerAfter slash_not_mem_lowerAfter)

theorem length_kebab_cons (c : Char) (rest : List Char) :
    (kebab (String.ofList (c :: rest))).toList.length =
      (c :: hyphenated rest).length + (c :: hyphenated rest).count 'İ' := by
  simp only [kebab, String.toList_ofList, Text.lower, length_lowerAfter]

/-- The module of a longer name is no shorter. -/
theorem length_kebab_le (cs more : List Char) :
    (kebab (String.ofList cs)).toList.length ≤ (kebab (String.ofList (cs ++ more))).toList.length := by
  cases cs with
  | nil => exact Nat.zero_le _
  | cons c rest =>
    have hlonger : c :: hyphenated (rest ++ more) = (c :: hyphenated rest) ++ hyphenated more := by
      rw [hyphenated, List.flatMap_append]
      rfl
    rw [List.cons_append, length_kebab_cons, length_kebab_cons, hlonger, List.length_append,
      List.count_append]
    omega

/-- The module of a name without slashes has none. -/
theorem slash_not_mem_kebab {name : String} (h : '/' ∉ name.toList) : '/' ∉ (kebab name).toList := by
  rw [kebab]
  split
  · exact List.not_mem_nil
  · next c rest hname =>
    rw [Text.lower, String.toList_ofList, String.toList_ofList]
    refine slash_not_mem_lowerAfter fun hmem => h ?_
    rw [hname]
    rcases List.mem_cons.mp hmem with heq | hmem
    · exact List.mem_cons.mpr (.inl heq)
    · obtain ⟨d, hd, hmem⟩ := List.mem_flatMap.mp hmem
      refine List.mem_cons_of_mem c ?_
      split at hmem
      · obtain rfl : '/' = d := by simpa using hmem
        exact hd
      · rwa [List.mem_singleton.mp hmem]

/-- The module of a name without letters from other alphabets. -/
theorem kebab_of_ascii {name : String} (h : name.toList.all (·.toNat < 128) = true) :
    kebab name = String.ofList (match name.toList with
      | [] => []
      | c :: rest => (c :: hyphenated rest).map Char.toLower) := by
  rw [kebab]
  cases hname : name.toList with
  | nil => rfl
  | cons c rest =>
    rw [hname, List.all_eq_true] at h
    refine congrArg String.ofList ?_
    rw [String.toList_ofList]
    refine Text.lowerAfter_of_ascii fun d hd => ?_
    rcases List.mem_cons.mp hd with rfl | hd
    · exact of_decide_eq_true (h _ List.mem_cons_self)
    · obtain ⟨e, he, hd⟩ := List.mem_flatMap.mp hd
      have hsmall := of_decide_eq_true (h e (List.mem_cons_of_mem _ he))
      split at hd
      · rcases List.mem_cons.mp hd with rfl | hd
        · decide
        · exact List.mem_singleton.mp hd ▸ hsmall
      · exact List.mem_singleton.mp hd ▸ hsmall

end Naming
end SchemaCompiler
