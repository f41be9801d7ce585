import SchemaCompiler.Proofs.Lowering.Guard
import SchemaCompiler.Proofs.Lowering.Unfolding

/-!
What nesting does to lowering. It complains exactly when some chain is bad, and otherwise it is
plain recursion over the unfolded trees.
-/
namespace SchemaCompiler.Lowering

variable {h : Heap} {limit : Int} {entries : Entries} {s : Stand}

/-- The guard stops no visit when no chain is bad. -/
theorem unguarded_of_not_bad (hb : ∀ p s, standAt? h entries p = some s → ¬ s.IsBad limit) :
    ∀ e ∈ entries, ∀ s, schemaStand? e = some s → s.Unguarded h limit := by
  intro e he s hs p c hp
  obtain ⟨i, hi⟩ := List.mem_iff_getElem?.mp he
  cases hg : c.guard? limit with
  | none => rfl
  | some e' =>
    exact (hb (i :: p) c (by simp [standAt?, hi, hs, hp]) (Stand.guard?_eq_some hg).1).elim

/-- The chain at a position is the first bad one in depth-first order. -/
def IsFirstBad (h : Heap) (limit : Int) (entries : Entries) (p : List Nat) (s : Stand) : Prop :=
  standAt? h entries p = some s ∧ s.IsBad limit ∧
    ∀ q < p, ∀ c, standAt? h entries q = some c → ¬ c.IsBad limit

/-- Without faults, lowering fails exactly at the first bad chain. -/
theorem exists_isFirstBad {e : LoweringError} (hf : ∀ p, ¬ FaultAt h entries p)
    (herr : (schemas h limit entries).outcome = .error e) :
    ∃ p s, IsFirstBad h limit entries p s ∧ e.nestingPath? = some s.site.path := by
  obtain ⟨p, hs, hmin⟩ := schemas_error_iff.mp herr
  rcases hs.bad_or_fault with ⟨s, hp, hb, hpath⟩ | ⟨hfault, _⟩
  · refine ⟨p, s, ⟨hp, hb, fun q hq c hc hbad => ?_⟩, hpath⟩
    obtain ⟨q', hpre, c', hc', e', hg⟩ := exists_guard?_at hc hbad
    have hs' : StopsAt h limit entries q' e' := .chain hc' (by simp [Stand.stop?, hg])
    exact hmin q' ((First.le_of_isPrefix hpre).trans_lt hq) e' hs'
  · exact (hf p hfault).elim

/-- When every key has a text, every number that is shown a notation and every type can be looked
up, lowering complains about nesting exactly when a chain is bad, and then about the first one;
otherwise it does what plain recursion over the unfolded trees does. -/
theorem guard_exact (hkeys : ∀ e ∈ entries, e.1.text?.isSome)
    (hwritable : ∀ p s, standAt? h entries p = some s → s.isUnwritable h = false)
    (hhashable : ∀ p s, standAt? h entries p = some s → s.unhashable? h = none) :
    ((∃ e path, (schemas h limit entries).outcome = .error e ∧ e.nestingPath? = some path) ↔
        ∃ p s, standAt? h entries p = some s ∧ s.IsBad limit) ∧
      (∀ e, (schemas h limit entries).outcome = .error e →
        ∃ p s, IsFirstBad h limit entries p s ∧ e.nestingPath? = some s.site.path) ∧
      ((∀ p s, standAt? h entries p = some s → ¬ s.IsBad limit) →
        (∃ ds, (schemas h limit entries).outcome = .ok ds) ∧
        (∃ roots, List.Forall₂ (UnfoldsEntry h) entries roots) ∧
        ∀ roots, List.Forall₂ (UnfoldsEntry h) entries roots →
          schemas h limit entries = declarations h roots) := by
  have hf : ∀ p, ¬ FaultAt h entries p := by
    rintro p (⟨hi, hk⟩ | ⟨hp, hfault⟩)
    · simpa [hk] using hkeys _ (List.mem_of_getElem? hi)
    · rw [Stand.fault?_eq_none.mpr ⟨hhashable _ _ hp, hwritable _ _ hp⟩] at hfault
      cases hfault
  refine ⟨⟨?_, ?_⟩, fun e herr => exists_isFirstBad hf herr, fun hb => ⟨?_, ?_, ?_⟩⟩
  · rintro ⟨e, path, herr, _⟩
    obtain ⟨p, s, ⟨hp, hb, _⟩, _⟩ := exists_isFirstBad hf herr
    exact ⟨p, s, hp, hb⟩
  · rintro ⟨p, s, hp, hb⟩
    obtain ⟨q, _, c, hc, e', hg⟩ := exists_guard?_at hp hb
    cases ho : (schemas h limit entries).outcome with
    | ok ds =>
      exact (schemas_ok_iff.mp ⟨ds, ho⟩ q e' (.chain hc (by simp [Stand.stop?, hg]))).elim
    | error e =>
      obtain ⟨_, s', _, hpath⟩ := exists_isFirstBad hf ho
      exact ⟨e, _, rfl, hpath⟩
  · cases ho : (schemas h limit entries).outcome with
    | ok ds => exact ⟨ds, rfl⟩
    | error e =>
      obtain ⟨p, s, ⟨hp, hbad, _⟩, _⟩ := exists_isFirstBad hf ho
      exact (hb p s hp hbad).elim
  · exact exists_unfoldsEntries hkeys (unguarded_of_not_bad hb)
  · exact fun roots hr => schemas_of_unfolds hr (unguarded_of_not_bad hb)

/-- A schema with two properties that are the same node. -/
def sharedHeap : Heap := ⟨#[
  .entries [(.str "type", .str "object"), (.str "properties", .map 1)],
  .entries [(.str "a", .map 2), (.str "b", .map 2)],
  .entries [(.str "type", .str "string")]]⟩

def sharedEntries : Entries := [(.str "A", .map 0)]

theorem chain_of_sharedHeap {p : List Nat} (hp : standAt? sharedHeap sharedEntries p = some s) :
    s.chain = [0] ∨ s.chain = [2, 0] := by
  refine standAt?_induction (motive := fun s => s.chain = [0] ∨ s.chain = [2, 0]) ?_ ?_ hp
  · intro e he s hs
    rw [List.mem_singleton.mp he] at hs
    cases hs
    exact Or.inl rfl
  · rintro ⟨node, outer, site⟩ (hs | hs) c hc
    · cases hs
      have hn : namedProperties sharedHeap 0 = [("a", .map 2), ("b", .map 2)] :=
        List.mergeSort_of_pairwise (by decide +kernel)
      have hc : c ∈ Stand.properties sharedHeap ⟨0, [], site⟩ := hc
      rw [Stand.properties, hn] at hc
      simp only [Stand.property?, Value.mapping?, Stand.below, List.filterMap_cons,
        List.filterMap_nil, Option.map_some, List.mem_cons, List.not_mem_nil, or_false] at hc
      rcases hc with rfl | rfl <;> exact Or.inr rfl
    · cases hs
      cases hc

/-- Properties that share a node are not mistaken for a node that contains itself. -/
theorem shared_node_unfolds : (∃ ds, (schemas sharedHeap 64 sharedEntries).outcome = .ok ds) ∧
    ∃ roots, List.Forall₂ (UnfoldsEntry sharedHeap) sharedEntries roots ∧
      schemas sharedHeap 64 sharedEntries = declarations sharedHeap roots := by
  have hstand {p : List Nat} {s : Stand} (hp : standAt? sharedHeap sharedEntries p = some s) :
      s.isUnwritable sharedHeap = false ∧ s.unhashable? sharedHeap = none ∧ ¬ s.IsBad 64 := by
    have hc := chain_of_sharedHeap hp
    obtain ⟨node, outer, site⟩ := s
    rcases hc with hc | hc <;> cases hc
    · exact ⟨rfl, rfl, by simp [Stand.IsBad, Stand.chain]⟩
    · exact ⟨rfl, rfl, by simp [Stand.IsBad, Stand.chain]⟩
  obtain ⟨_, _, hplain⟩ := @guard_exact sharedHeap 64 sharedEntries (by decide)
    (fun p s hp => (hstand hp).1) fun p s hp => (hstand hp).2.1
  obtain ⟨hok, ⟨roots, hroots⟩, heq⟩ := hplain fun p s hp => (hstand hp).2.2
  exact ⟨hok, roots, hroots, heq roots hroots⟩

/-- A schema whose `type` is a number of 5001 digits, and one with a property that is the schema
again. -/
def longNumberHeap : Heap := ⟨#[
  .entries [(.str "type", .scalar (.int (Int.ofNat (Nat.pow 10 5000))))],
  .entries [(.str "type", .str "object"), (.str "properties", .map 2)],
  .entries [(.str "x", .map 1)]]⟩

def longNumberEntries : Entries := [(.str "A", .map 0), (.str "B", .map 1)]

theorem chain_of_longNumberHeap {p : List Nat}
    (hp : standAt? longNumberHeap longNumberEntries p = some s) : s.chain = [0] ∨ s.node = 1 := by
  refine standAt?_induction (motive := fun s => s.chain = [0] ∨ s.node = 1) ?_ ?_ hp
  · intro e he s hs
    rcases List.mem_cons.mp he with rfl | he
    · cases hs
      exact Or.inl rfl
    · rw [List.mem_singleton.mp he] at hs
      cases hs
      exact Or.inr rfl
  · rintro ⟨node, outer, site⟩ (hs | rfl) c hc
    · cases hs
      have hn : namedProperties longNumberHeap 0 = [] := by decide +kernel
      have hc : c ∈ Stand.properties longNumberHeap ⟨0, [], site⟩ := hc
      rw [Stand.properties, hn] at hc
      cases hc
    · have hn : namedProperties longNumberHeap 1 = [("x", .map 1)] := by decide +kernel
      have hc : c ∈ Stand.properties longNumberHeap ⟨1, outer, site⟩ := by
        cases outer <;> exact hc
      rw [Stand.properties, hn] at hc
      simp only [Stand.property?, Value.mapping?, Stand.below, List.filterMap_cons,
        List.filterMap_nil, Option.map_some, List.mem_singleton] at hc
      cases hc
      exact Or.inr rfl

/-- A number that is too long to be shown ends lowering before a bad chain is met. -/
theorem long_number_ends_lowering :
    (∀ p s, standAt? longNumberHeap longNumberEntries p = some s →
      s.unhashable? longNumberHeap = none) ∧
    (∃ p s, standAt? longNumberHeap longNumberEntries p = some s ∧ s.IsBad 64) ∧
    ¬ ∃ e path, (schemas longNumberHeap 64 longNumberEntries).outcome = .error e ∧
      e.nestingPath? = some path := by
  refine ⟨fun p s hp => ?_, ⟨[1, 0], ?_⟩, ?_⟩
  · have hc := chain_of_longNumberHeap hp
    obtain ⟨node, outer, site⟩ := s
    rcases hc with hc | rfl
    · cases hc
      rfl
    · cases outer <;> rfl
  · have hchain : (standAt? longNumberHeap longNumberEntries [1, 0]).map Stand.chain =
        some [1, 1] := by decide +kernel
    obtain ⟨s, hs, hc⟩ := Option.map_eq_some_iff.mp hchain
    refine ⟨s, hs, Or.inl ?_⟩
    rw [hc]
    decide
  · have herr : (schemas longNumberHeap 64 longNumberEntries).error? = some .numberTooLong := by
      decide +kernel
    rw [Traced.error?_eq_some] at herr
    rw [herr]
    rintro ⟨e, path, he, hpath⟩
    cases he
    cases hpath

end SchemaCompiler.Lowering
