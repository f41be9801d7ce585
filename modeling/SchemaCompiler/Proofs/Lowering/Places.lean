import Mathlib.Data.Nat.Find
import Mathlib.Data.Prod.Lex
import SchemaCompiler.Proofs.Lowering.Stop

/-!
Places of visited nodes. A place belongs to the nearest object above it. Going through declarations
object by object meets places by their objects first, and then in depth-first order.
-/
namespace SchemaCompiler.Lowering

variable {h : Heap} {entries : Entries} {s : Stand} {p q x y : List Nat} {i j : Nat}

section

variable {α β : Type} {P Q : List Nat → Prop} {R R' : List Nat → List Nat → Prop}
  {V : List Nat → α → Prop} {W : List Nat → β → Prop} {xs ys : List α}

/-- A list of one value for each place that `P` holds of, in the order `R` of the places. -/
def Lists (P : List Nat → Prop) (R : List Nat → List Nat → Prop) (V : List Nat → α → Prop)
    (values : List α) : Prop :=
  ∃ places, places.Pairwise R ∧ (∀ p, p ∈ places ↔ P p) ∧ List.Forall₂ V places values

namespace Lists

theorem nil (h : ∀ p, ¬ P p) : Lists P R V [] :=
  ⟨[], .nil, fun p => iff_of_false List.not_mem_nil (h p), .nil⟩

theorem singleton {v : α} (hP : ∀ q, P q ↔ q = p) (hV : V p v) : Lists P R V [v] :=
  ⟨[p], List.pairwise_singleton _ _, fun q => List.mem_singleton.trans (hP q).symm,
    .cons hV .nil⟩

theorem congr (hl : Lists P R V xs) (h : ∀ p, P p ↔ Q p) : Lists Q R V xs := by
  obtain ⟨places, hR, hP, hV⟩ := hl
  exact ⟨places, hR, fun p => (hP p).trans (h p), hV⟩

theorem mono (hl : Lists P R V xs) (h : ∀ p q, P p → P q → R p q → R' p q) :
    Lists P R' V xs := by
  obtain ⟨places, hR, hP, hV⟩ := hl
  refine ⟨places, hR.imp_of_mem fun hp hq hpq => ?_, hP, hV⟩
  exact h _ _ ((hP _).mp hp) ((hP _).mp hq) hpq

theorem append (hx : Lists P R V xs) (hy : Lists Q R V ys) (h : ∀ p q, P p → Q q → R p q) :
    Lists (fun p => P p ∨ Q p) R V (xs ++ ys) := by
  obtain ⟨ps, hRp, hP, hVp⟩ := hx
  obtain ⟨qs, hRq, hQ, hVq⟩ := hy
  refine ⟨ps ++ qs, ?_, fun p => ?_, List.rel_append hVp hVq⟩
  · refine List.pairwise_append.mpr ⟨hRp, hRq, fun p hp q hq => ?_⟩
    exact h p q ((hP p).mp hp) ((hQ q).mp hq)
  · rw [List.mem_append, hP, hQ]

/-- The lists for the members of a list, one after the other. -/
theorem flatMap {f : β → List α} {zs : List β} {P : Nat → List Nat → Prop}
    (hf : ∀ i z, zs[i]? = some z → Lists (P i) R V (f z))
    (hR : ∀ i j, i < j → ∀ p q, P i p → P j q → R p q) :
    Lists (fun p => ∃ i < zs.length, P i p) R V (zs.flatMap f) := by
  induction zs generalizing P with
  | nil => exact nil fun p ⟨i, hi, _⟩ => Nat.not_lt_zero i hi
  | cons z zs ih =>
    have hrest : Lists (fun p => ∃ i < zs.length, P (i + 1) p) R V (zs.flatMap f) :=
      ih (fun i z hz => hf (i + 1) z hz) fun i j hij => hR (i + 1) (j + 1) (by omega)
    rw [List.flatMap_cons]
    refine ((hf 0 z rfl).append hrest ?_).congr fun p => ?_
    · rintro p q hp ⟨i, _, hq⟩
      exact hR 0 (i + 1) (by omega) p q hp hq
    · rw [List.length_cons, Nat.exists_lt_succ_left]

/-- Leaving out values leaves out their places. -/
theorem filterMap {f : α → Option β} (hl : Lists P R V xs)
    (hkeep : ∀ p v, V p v → (Q p ↔ (f v).isSome)) (hf : ∀ p v w, V p v → f v = some w → W p w) :
    Lists (fun p => P p ∧ Q p) R W (xs.filterMap f) := by
  obtain ⟨places, hR, hP, hV⟩ := hl
  suffices h : ∃ kept, kept.Sublist places ∧ (∀ p, p ∈ kept ↔ p ∈ places ∧ Q p) ∧
      List.Forall₂ W kept (xs.filterMap f) by
    obtain ⟨kept, hsub, hmem, hW⟩ := h
    exact ⟨kept, hR.sublist hsub, fun p => by rw [hmem, hP], hW⟩
  clear hR hP
  induction hV with
  | nil => exact ⟨[], .slnil, by simp, .nil⟩
  | @cons p v places xs hpv _ ih =>
    obtain ⟨kept, hsub, hmem, hW⟩ := ih
    cases hv : f v with
    | none =>
      have hQ : ¬ Q p := by rw [hkeep p v hpv, hv]; exact Bool.false_ne_true
      refine ⟨kept, hsub.cons p, fun q => ?_, by rwa [List.filterMap_cons, hv]⟩
      rw [hmem, List.mem_cons]
      refine ⟨fun hq => ⟨.inr hq.1, hq.2⟩, ?_⟩
      rintro ⟨rfl | hq, hQq⟩
      · exact absurd hQq hQ
      · exact ⟨hq, hQq⟩
    | some w =>
      have hQ : Q p := by rw [hkeep p v hpv, hv]; rfl
      refine ⟨p :: kept, hsub.cons_cons p, fun q => ?_, ?_⟩
      · rw [List.mem_cons, List.mem_cons, hmem]
        constructor
        · rintro (rfl | hq)
          · exact ⟨.inl rfl, hQ⟩
          · exact ⟨.inr hq.1, hq.2⟩
        · rintro ⟨rfl | hq, hQq⟩
          · exact .inl rfl
          · exact .inr ⟨hq, hQq⟩
      · rw [List.filterMap_cons, hv]
        exact .cons (hf p v w hpv hv) hW

end Lists

end

/-- Whether an object stands at a place. -/
def objectAt (h : Heap) (entries : Entries) (p : List Nat) : Bool :=
  (standAt? h entries p).any fun s =>
    match s.way h with
    | .object => true
    | _ => false

/-- The place of the nearest object above a place. -/
def owner (h : Heap) (entries : Entries) (p : List Nat) : List Nat :=
  p.take (Nat.findGreatest (fun n => objectAt h entries (p.take n)) (p.length - 1))

/-- Places by the objects that they belong to; those of one object in depth-first order. -/
def Before (h : Heap) (entries : Entries) (p q : List Nat) : Prop :=
  toLex (owner h entries p, p) < toLex (owner h entries q, q)

theorem before_iff : Before h entries p q ↔ owner h entries p < owner h entries q ∨
    owner h entries p = owner h entries q ∧ p < q :=
  Prod.Lex.toLex_lt_toLex

theorem owner_isPrefix : owner h entries p <+: p := List.take_prefix _ _

theorem owner_ne (hp : p ≠ []) : owner h entries p ≠ p := by
  intro heq
  have hlength := congrArg List.length heq
  rw [owner, List.length_take] at hlength
  have hpos : 0 < p.length := List.length_pos_iff.mpr hp
  have hle := Nat.findGreatest_le (P := fun n => objectAt h entries (p.take n)) (p.length - 1)
  omega

/-- An object above a place is above the nearest one, or is that one. -/
theorem prefix_owner (hq : q <+: p) (hne : q ≠ p) (hobject : objectAt h entries q) :
    q <+: owner h entries p := by
  have hlt : q.length < p.length :=
    lt_of_le_of_ne hq.length_le fun heq => hne (hq.eq_of_length heq)
  have htake : p.take q.length = q := (List.prefix_iff_eq_take.mp hq).symm
  have hle : q.length ≤ Nat.findGreatest (fun n => objectAt h entries (p.take n)) (p.length - 1) :=
    Nat.le_findGreatest (by omega) (by rw [htake]; exact hobject)
  rw [owner]
  exact List.prefix_take_iff.mpr ⟨hq, hle⟩

theorem objectAt_owner (hne : owner h entries p ≠ []) : objectAt h entries (owner h entries p) := by
  have hzero : Nat.findGreatest (fun n => objectAt h entries (p.take n)) (p.length - 1) ≠ 0 := by
    intro heq
    rw [owner, heq] at hne
    exact hne rfl
  exact Nat.findGreatest_of_ne_zero rfl hzero

/-- Places below different children of a place are in the order of the children. -/
theorem lt_of_branch (hij : i < j) (hx : p ++ [i] <+: x) (hy : p ++ [j] <+: y) : x < y := by
  obtain ⟨x', rfl⟩ := hx
  obtain ⟨y', rfl⟩ := hy
  rw [List.append_assoc, List.append_assoc]
  exact List.append_left_lt (List.cons_lt_cons_iff.mpr (.inl hij))

theorem lt_of_child (hx : p ++ [i] <+: x) : p < x := by
  have hle : p ≤ x := First.le_of_isPrefix ((List.prefix_append p [i]).trans hx)
  refine lt_of_le_of_ne hle ?_
  rintro rfl
  have hlength := hx.length_le
  rw [List.length_append, List.length_singleton] at hlength
  omega

theorem standAt?_child {c : Stand} (hs : standAt? h entries p = some s)
    (hc : (s.children h)[i]? = some c) : standAt? h entries (p ++ [i]) = some c := by
  rw [standAt?_append hs, Stand.descend, hc]
  rfl

/-- A node at or below a place stands at the place itself, or at or below one of its children. -/
theorem standAt?_of_isPrefix {t : Stand} (hs : standAt? h entries p = some s) (hp : p <+: x)
    (ht : standAt? h entries x = some t) : x = p ∧ t = s ∨
      ∃ i c, (s.children h)[i]? = some c ∧ standAt? h entries (p ++ [i]) = some c ∧
        p ++ [i] <+: x := by
  obtain ⟨q, rfl⟩ := hp
  rw [standAt?_append hs] at ht
  cases q with
  | nil =>
    cases ht
    exact .inl ⟨List.append_nil p, rfl⟩
  | cons i q =>
    obtain ⟨c, hc, _⟩ := Option.bind_eq_some_iff.mp ht
    exact .inr ⟨i, c, hc, standAt?_child hs hc, ⟨q, by simp⟩⟩

theorem place_ne_nil (hs : standAt? h entries p = some s) : p ≠ [] := by
  rintro rfl
  cases hs

end SchemaCompiler.Lowering
