import Mathlib.Data.List.Forall2
import Mathlib.Data.List.Lex

/-!
First positions in depth-first order. A position in a tree is the list of the choices that lead to
it, so depth-first order is the lexicographic one. Searching node by node finds the first position.
-/
namespace SchemaCompiler.First

variable {α ε : Type} {f g : List Nat → Option ε} {p q : List Nat} {e e' : ε}

/-- `p` is the first position at which something is found, and `e` is found there. -/
def IsFirst (g : List Nat → Option ε) (p : List Nat) (e : ε) : Prop :=
  g p = some e ∧ ∀ q < p, g q = none

/-- A position comes before those below it. -/
theorem le_of_isPrefix (h : p <+: q) : p ≤ q := not_lt.mp (List.not_lt.mpr h.le)

/-- `o` is what there is at the first position, and nothing when there is nothing anywhere. -/
def Finds (o : Option ε) (g : List Nat → Option ε) : Prop :=
  match o with
  | some e => ∃ p, IsFirst g p e
  | none => ∀ p, g p = none

theorem IsFirst.unique (hp : IsFirst g p e) (hq : IsFirst g q e') : p = q ∧ e = e' := by
  have hpq : p = q := by
    by_contra hne
    by_cases hlt : p < q
    · have := hq.2 p hlt
      simp [hp.1] at this
    · rcases le_iff_lt_or_eq.mp (not_lt.mp hlt) with h | h
      · have := hp.2 q h
        simp [hq.1] at this
      · exact hne h.symm
  subst hpq
  exact ⟨rfl, Option.some.inj (hp.1.symm.trans hq.1)⟩

theorem Finds.eq_some_iff {o : Option ε} (h : Finds o g) : o = some e ↔ ∃ p, IsFirst g p e := by
  cases o with
  | none =>
    constructor
    · rintro ⟨⟩
    · rintro ⟨p, hp, _⟩
      simp [h p] at hp
  | some e' =>
    obtain ⟨q, hq⟩ := h
    constructor
    · rintro ⟨⟩
      exact ⟨q, hq⟩
    · rintro ⟨p, hp⟩
      exact congrArg some (hq.unique hp).2

theorem Finds.eq_none_iff {o : Option ε} (h : Finds o g) : o = none ↔ ∀ p, g p = none := by
  cases o with
  | none => exact ⟨fun _ => h, fun _ => rfl⟩
  | some e =>
    obtain ⟨p, hp, _⟩ := h
    constructor
    · rintro ⟨⟩
    · intro hn
      simp [hn p] at hp

theorem findSome?_congr {f f' : α → Option ε} {xs : List α} (hf : ∀ x ∈ xs, f x = f' x) :
    xs.findSome? f = xs.findSome? f' := by
  induction xs with
  | nil => rfl
  | cons x rest ih =>
    rw [List.findSome?_cons, List.findSome?_cons, hf x (by simp),
      ih fun y hy => hf y (by simp [hy])]

/-- The positions below a list of things: which one, and the position in it. -/
def among (g : α → List Nat → Option ε) (xs : List α) : List Nat → Option ε
  | [] => none
  | i :: p => xs[i]?.bind fun x => g x p

/-- Going through a list from left to right finds the first position in it. -/
theorem finds_findSome? {f : α → Option ε} {g : α → List Nat → Option ε} {xs : List α}
    (hf : ∀ x ∈ xs, Finds (f x) (g x)) : Finds (xs.findSome? f) (among g xs) := by
  cases ho : xs.findSome? f with
  | none =>
    have hn := List.findSome?_eq_none_iff.mp ho
    rintro (_ | ⟨i, p⟩)
    · rfl
    · cases hx : xs[i]? with
      | none => simp [among, hx]
      | some x =>
        have hm := List.mem_of_getElem? hx
        have hg := (hf x hm).eq_none_iff.mp (hn x hm)
        simp [among, hx, hg p]
  | some e =>
    obtain ⟨l, x, r, rfl, hx, hl⟩ := List.findSome?_eq_some_iff.mp ho
    obtain ⟨p, hp, hlt⟩ := (hf x (by simp)).eq_some_iff.mp hx
    refine ⟨l.length :: p, by simpa [among] using hp, ?_⟩
    rintro (_ | ⟨i, q⟩) hq
    · rfl
    · rcases List.cons_lt_cons_iff.mp hq with hi | ⟨rfl, hlq⟩
      · have hg := (hf l[i] (by simp)).eq_none_iff.mp (hl l[i] (List.getElem_mem hi))
        have hx : (l ++ x :: r)[i]? = some l[i] := by
          rw [List.getElem?_append_left hi, List.getElem?_eq_getElem hi]
        simp [among, hx, hg q]
      · simpa [among] using hlt q hlq

/-- What is at the root comes before all that is below it. -/
theorem finds_or {stop o : Option ε} (hroot : g [] = stop) (hbelow : stop = none → Finds o g) :
    Finds (stop.or o) g := by
  cases stop with
  | some e => exact ⟨[], hroot, fun q hq => (List.not_lt_nil q hq).elim⟩
  | none => exact hbelow rfl

end SchemaCompiler.First
