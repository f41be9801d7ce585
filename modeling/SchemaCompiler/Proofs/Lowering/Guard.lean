import SchemaCompiler.Proofs.Lowering.Stop

/-!
The guard against endless nesting. A chain of visited nodes is bad when a node stands in it twice or
when it is longer than the limit; the guard stops lowering at the first bad chain.
-/
namespace SchemaCompiler

/-- The path that an error about nesting names. -/
def LoweringError.nestingPath? : LoweringError → Option String
  | .selfContained path | .tooDeep _ path => some path
  | .unhashableType _ | .numberTooLong => none

namespace Lowering

variable {h : Heap} {limit : Int} {entries : Entries} {s c : Stand} {p : List Nat}
  {e : LoweringError}

namespace Stand

/-- A node and the nodes that it was reached through, the last one first. -/
def chain (s : Stand) : List Address := s.node :: s.outer

/-- A node stands twice in the chain, or the chain is too long. -/
def IsBad (limit : Int) (s : Stand) : Prop := ¬ s.chain.Nodup ∨ limit < s.chain.length

theorem guard?_eq_some (hg : s.guard? limit = some e) :
    s.IsBad limit ∧ e.nestingPath? = some s.site.path := by
  rw [guard?] at hg
  split at hg
  · next hc =>
    cases hg
    refine ⟨Or.inl fun hn => ?_, rfl⟩
    exact (List.nodup_cons.mp hn).1 (by simpa using hc)
  · split at hg
    · cases hg
      refine ⟨Or.inr ?_, rfl⟩
      rw [chain, List.length_cons]
      omega
    · cases hg

theorem guard?_eq_none (hg : s.guard? limit = none) (hn : s.outer.Nodup) : ¬ s.IsBad limit := by
  rw [guard?] at hg
  split at hg
  · cases hg
  · next hc =>
    split at hg
    · cases hg
    · next hl =>
      rintro (hb | hb)
      · exact hb (List.nodup_cons.mpr ⟨by simpa using hc, hn⟩)
      · rw [chain, List.length_cons] at hb
        omega

theorem fault?_nestingPath? (hf : s.fault? h = some e) : e.nestingPath? = none := by
  rcases Option.or_eq_some_iff.mp hf with hu | ⟨_, hw⟩
  · obtain ⟨kind, _, rfl⟩ := Option.map_eq_some_iff.mp hu
    rfl
  · rw [Traced.tooLongIf] at hw
    split at hw
    · cases hw
      rfl
    · cases hw

/-- On the way to a bad chain the guard has met one that is bad, unless the chain was bad before. -/
theorem exists_guard?_of_isBad (hd : s.descend h p = some c) (hb : c.IsBad limit)
    (hn : s.outer.Nodup) : ∃ q, q <+: p ∧ ∃ c', s.descend h q = some c' ∧
      ∃ e, c'.guard? limit = some e := by
  induction p generalizing s with
  | nil =>
    cases hd
    cases hg : c.guard? limit with
    | none => exact (guard?_eq_none hg hn hb).elim
    | some e => exact ⟨[], List.prefix_refl _, c, rfl, e, hg⟩
  | cons i p ih =>
    cases hg : s.guard? limit with
    | some e => exact ⟨[], List.nil_prefix, s, rfl, e, hg⟩
    | none =>
      obtain ⟨t, ht, hd⟩ := Option.bind_eq_some_iff.mp hd
      -- The chain grows without repetition as long as the guard lets it through.
      have hs : s.chain.Nodup := by
        by_contra hs
        exact guard?_eq_none hg hn (Or.inl hs)
      obtain ⟨q, hq, c', hc', he⟩ := ih hd (by
        rw [outer_of_mem_children (List.mem_of_getElem? ht)]
        exact hs)
      exact ⟨i :: q, List.cons_prefix_cons.mpr ⟨rfl, hq⟩, c', by simp [descend, ht, hc'], he⟩

end Stand

theorem outer_of_schemaStand? {entry : Scalar × Value} (hs : schemaStand? entry = some s) :
    s.outer = [] := by
  obtain ⟨name, node, _, _, rfl⟩ := schemaStand?_eq_some.mp hs
  rfl

/-- At a bad chain, or on the way to it, the guard stops lowering. -/
theorem exists_guard?_at (hp : standAt? h entries p = some s) (hb : s.IsBad limit) :
    ∃ q, q <+: p ∧ ∃ c, standAt? h entries q = some c ∧ ∃ e, c.guard? limit = some e := by
  cases p with
  | nil => cases hp
  | cons i p =>
    obtain ⟨t, ht, hd⟩ := Option.bind_eq_some_iff.mp hp
    obtain ⟨entry, _, hs⟩ := Option.bind_eq_some_iff.mp ht
    have hn : t.outer.Nodup := by
      rw [outer_of_schemaStand? hs]
      exact List.nodup_nil
    obtain ⟨q, hq, c, hc, he⟩ := Stand.exists_guard?_of_isBad hd hb hn
    exact ⟨i :: q, List.cons_prefix_cons.mpr ⟨rfl, hq⟩, c, by simp [standAt?, ht, hc], he⟩

/-- A key or a node that lowering cannot deal with, by position. -/
inductive FaultAt (h : Heap) (entries : Entries) : List Nat → Prop
  | key {i : Nat} {k : Scalar} {v : Value} (hi : entries[i]? = some (k, v))
      (hk : k.text? = none) : FaultAt h entries [i]
  | node {p : List Nat} {s : Stand} {e : LoweringError} (hp : standAt? h entries p = some s)
      (hf : s.fault? h = some e) : FaultAt h entries p

theorem StopsAt.bad_or_fault (hs : StopsAt h limit entries p e) :
    (∃ s, standAt? h entries p = some s ∧ s.IsBad limit ∧ e.nestingPath? = some s.site.path) ∨
      (FaultAt h entries p ∧ e.nestingPath? = none) := by
  cases hs with
  | key hi hk => exact Or.inr ⟨.key hi hk, rfl⟩
  | chain hp hs =>
    rcases Option.or_eq_some_iff.mp hs with hg | ⟨_, hf⟩
    · exact Or.inl ⟨_, hp, Stand.guard?_eq_some hg⟩
    · exact Or.inr ⟨.node hp hf, Stand.fault?_nestingPath? hf⟩

theorem FaultAt.stopsAt (limit : Int) (hf : FaultAt h entries p) :
    ∃ e, StopsAt h limit entries p e := by
  cases hf with
  | key hi hk => exact ⟨_, .key hi hk⟩
  | @node _ s e hp hf =>
    cases hg : s.guard? limit with
    | some e' => exact ⟨e', .chain hp (by simp [Stand.stop?, hg])⟩
    | none => exact ⟨e, .chain hp (by simp [Stand.stop?, hg, hf])⟩

/-- Lowering gives declarations or complains about nesting, unless a fault comes before every bad
chain. -/
theorem ends_well_iff :
    ((∃ ds, (schemas h limit entries).outcome = .ok ds) ∨
      ∃ e path, (schemas h limit entries).outcome = .error e ∧ e.nestingPath? = some path) ↔
    ∀ p, FaultAt h entries p → ∃ q ≤ p, ∃ s, standAt? h entries q = some s ∧ s.IsBad limit := by
  constructor
  · intro hw p hf
    obtain ⟨e, hs⟩ := hf.stopsAt limit
    rcases hw with hok | ⟨e₀, path, herr, hpath⟩
    · exact (schemas_ok_iff.mp hok p e hs).elim
    · obtain ⟨p₀, hs₀, hmin⟩ := schemas_error_iff.mp herr
      have hle : p₀ ≤ p := not_lt.mp fun hlt => hmin p hlt e hs
      rcases hs₀.bad_or_fault with ⟨s, hp, hb, _⟩ | ⟨_, hnone⟩
      · exact ⟨p₀, hle, s, hp, hb⟩
      · simp [hnone] at hpath
  · intro hbad
    cases ho : (schemas h limit entries).outcome with
    | ok ds => exact Or.inl ⟨ds, rfl⟩
    | error e =>
      right
      obtain ⟨p, hs, hmin⟩ := schemas_error_iff.mp ho
      rcases hs.bad_or_fault with ⟨s, _, _, hpath⟩ | ⟨hf, _⟩
      · exact ⟨e, _, rfl, hpath⟩
      · -- The guard has met a bad chain no later than the fault, so the fault is not the first stop.
        obtain ⟨q, hq, s, hp, hb⟩ := hbad p hf
        obtain ⟨q', hpre, c, hc, e', hg⟩ := exists_guard?_at hp hb
        have hs' : StopsAt h limit entries q' e' := .chain hc (by simp [Stand.stop?, hg])
        rcases le_iff_lt_or_eq.mp ((First.le_of_isPrefix hpre).trans hq) with hlt | rfl
        · exact (hmin q' hlt e' hs').elim
        · cases hs.unique hs'
          exact ⟨e, _, rfl, (Stand.guard?_eq_some hg).2⟩

/-- A schema with a property whose `type` is a list of types. -/
def listedTypeHeap : Heap := ⟨#[
  .entries [(.str "type", .str "object"), (.str "properties", .map 1)],
  .entries [(.str "x", .map 2)],
  .entries [(.str "type", .list 3)],
  .items [.str "string", .str "null"]]⟩

/-- A list of types ends lowering, though no nodes nest. -/
theorem listed_type_ends_badly :
    ¬ ((∃ ds, (schemas listedTypeHeap 64 [(.str "A", .map 0)]).outcome = .ok ds) ∨
      ∃ e path, (schemas listedTypeHeap 64 [(.str "A", .map 0)]).outcome = .error e ∧
        e.nestingPath? = some path) := by
  have herr : (schemas listedTypeHeap 64 [(.str "A", .map 0)]).error? =
      some (.unhashableType "list") := by decide +kernel
  rw [Traced.error?_eq_some] at herr
  rw [herr]
  rintro (⟨ds, hds⟩ | ⟨e, path, he, hpath⟩)
  · cases hds
  · cases he
    cases hpath

end Lowering
end SchemaCompiler
