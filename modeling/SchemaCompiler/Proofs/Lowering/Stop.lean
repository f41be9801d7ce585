import SchemaCompiler.Proofs.Lowering.First
import SchemaCompiler.Proofs.Lowering.Parts

/-!
Where lowering stops. Every chain of visited nodes has a position: which schema it starts at, and
which child it goes on to at each step. Lowering stops at the first position, in depth-first order,
whose node is met again, lies too deep or cannot be lowered itself.
-/
namespace SchemaCompiler.Lowering

open First (IsFirst Finds among)

variable {h : Heap} {limit : Int} {entries : Entries} {s : Stand}

namespace Stand

/-- What keeps a node from being visited at all. -/
def guard? (limit : Int) (s : Stand) : Option LoweringError :=
  if s.outer.contains s.node then some (.selfContained s.site.path)
  else if limit ≤ s.outer.length then some (.tooDeep limit s.site.path)
  else none

/-- A visit that the guard lets through is one level of lowering. -/
theorem visit_eq_level (hg : s.guard? limit = none) :
    s.visit h limit = s.level h fun node site => (s.below node site).visit h limit := by
  rw [guard?] at hg
  rw [visit_eq]
  split at hg
  · cases hg
  · next hc =>
    split at hg
    · cases hg
    · next hl => rw [if_neg hc, if_neg hl]

/-- What ends a visit at the node itself. -/
def stop? (h : Heap) (limit : Int) (s : Stand) : Option LoweringError :=
  (s.guard? limit).or (s.fault? h)

/-- The stand that is reached from `s` by choosing a child at each step. -/
def descend (h : Heap) : List Nat → Stand → Option Stand
  | [], s => some s
  | i :: p, s => (s.children h)[i]?.bind fun c => descend h p c

theorem below_of_mem_children {s c : Stand} (hc : c ∈ s.children h) :
    s.below c.node c.site = c := by
  rw [children] at hc
  split at hc
  · obtain ⟨⟨name, v⟩, _, hp⟩ := List.mem_filterMap.mp hc
    obtain ⟨a, _, rfl⟩ := Option.map_eq_some_iff.mp hp
    rfl
  · obtain ⟨a, _, rfl⟩ := Option.map_eq_some_iff.mp (Option.mem_toList.mp hc)
    rfl
  · cases hc

theorem outer_of_mem_children {s c : Stand} (hc : c ∈ s.children h) :
    c.outer = s.node :: s.outer := by
  rw [← below_of_mem_children hc]
  rfl

theorem outer_ne_nil_of_mem_children {s c : Stand} (hc : c ∈ s.children h) : c.outer ≠ [] := by
  rw [outer_of_mem_children hc]
  exact List.cons_ne_nil _ _

theorem mem_children_of_property {name : String} {a : Address} (hw : s.way h = .object)
    (hp : (name, .map a) ∈ namedProperties h s.node) :
    s.below a (s.site.property name) ∈ s.children h := by
  rw [children, hw]
  exact List.mem_filterMap.mpr ⟨_, hp, rfl⟩

theorem mem_children_of_items {a : Address} (hw : s.way h = .array)
    (hi : h.find? s.node "items" = some (.map a)) : s.below a s.site.items ∈ s.children h := by
  simp [children, hw, items?, hi, Value.mapping?]

theorem way_of_outer_ne_nil (ho : s.outer ≠ []) : s.way h = wayOf h s.node := by
  simp [way, ho]

/-- A visit fails at its own node, or else in the first visit below that fails. -/
theorem error?_visit (s : Stand) :
    (s.visit h limit).error? =
      (s.stop? h limit).or ((s.children h).findSome? fun c => (c.visit h limit).error?) := by
  rw [visit_eq, stop?, guard?]
  split
  · rfl
  · split
    · rfl
    · rw [error?_level, Option.none_or]
      congr 1
      exact First.findSome?_congr fun c hc => by rw [below_of_mem_children hc]

/-- The stops below a stand, by position. -/
def stopAt (h : Heap) (limit : Int) (s : Stand) (p : List Nat) : Option LoweringError :=
  (descend h p s).bind fun c => c.stop? h limit

theorem stop?_eq_none : s.stop? h limit = none ↔ s.guard? limit = none ∧ s.fault? h = none :=
  Option.or_eq_none_iff

theorem length_outer_of_guard? (hg : s.guard? limit = none) : s.outer.length < limit.toNat := by
  rw [guard?] at hg
  split at hg
  · cases hg
  · split at hg
    · cases hg
    · omega

/-- The guard lets chains grow only up to the limit, so what passes on from the nodes below holds of
every node. -/
theorem visit_induction (h : Heap) (limit : Int) {motive : Stand → Prop}
    (step : ∀ s, (s.guard? limit = none → ∀ c ∈ s.children h, motive c) → motive s) (s : Stand) :
    motive s := by
  induction hn : limit.toNat - s.outer.length using Nat.strongRecOn generalizing s with
  | ind n ih =>
    refine step s fun hg c hc => ih _ ?_ c rfl
    have hlt := length_outer_of_guard? hg
    rw [outer_of_mem_children hc, List.length_cons]
    omega

/-- A visit fails at the first stop below its stand, and at nothing else. -/
theorem finds_visit (s : Stand) : Finds (s.visit h limit).error? (s.stopAt h limit) := by
  induction s using visit_induction h limit with
  | step s ih =>
    rw [error?_visit]
    refine First.finds_or rfl fun hs => ?_
    have hg : s.stopAt h limit = among (fun c => c.stopAt h limit) (s.children h) := by
      funext p
      cases p with
      | nil => exact hs
      | cons i p => cases hc : (s.children h)[i]? <;> simp [stopAt, descend, among, hc]
    rw [hg]
    exact First.finds_findSome? (ih (stop?_eq_none.mp hs).1)

theorem descend_append {c : Stand} {p : List Nat} (hp : s.descend h p = some c) (q : List Nat) :
    s.descend h (p ++ q) = c.descend h q := by
  induction p generalizing s with
  | nil =>
    cases hp
    rfl
  | cons i p ih =>
    obtain ⟨t, ht, hp⟩ := Option.bind_eq_some_iff.mp hp
    rw [List.cons_append, descend, ht]
    exact ih hp

/-- A visit goes through when nothing stops it and all visits below go through. -/
theorem error?_visit_eq_none : (s.visit h limit).error? = none ↔
    s.stop? h limit = none ∧ ∀ c ∈ s.children h, (c.visit h limit).error? = none := by
  rw [error?_visit, Option.or_eq_none_iff, List.findSome?_eq_none_iff]

/-- The stand of a schema. -/
def ofSchema (name : String) (node : Address) : Stand := ⟨node, [], ⟨name, schemaPath name⟩⟩

theorem way_ofSchema {name : String} {node : Address} (he : h.find? node "enum" = none) :
    (ofSchema name node).way h = .object := by
  simp [way, ofSchema, he]

end Stand

/-- The stand of an entry of the schemas mapping, if it is a schema. -/
def schemaStand? (e : Scalar × Value) : Option Stand :=
  e.1.text?.bind fun name => e.2.mapping?.map (Stand.ofSchema name)

theorem schemaStand?_eq_some {e : Scalar × Value} : schemaStand? e = some s ↔
    ∃ name node, e.1.text? = some name ∧ e.2 = .map node ∧ s = Stand.ofSchema name node := by
  simp only [schemaStand?, Option.bind_eq_some_iff, Option.map_eq_some_iff,
    Value.mapping?_eq_some]
  constructor
  · rintro ⟨name, hn, node, hm, rfl⟩
    exact ⟨name, node, hn, hm, rfl⟩
  · rintro ⟨name, node, hn, hm, rfl⟩
    exact ⟨name, hn, node, hm, rfl⟩

/-- The visited chain at a position, by the stand of its last node: the number of a schema and then
the number of a child at each step. -/
def standAt? (h : Heap) (entries : Entries) : List Nat → Option Stand
  | [] => none
  | i :: p => (entries[i]?.bind schemaStand?).bind fun s => s.descend h p

/-- What holds of the schemas and passes on to the nodes visited from a node holds of every visited
node. -/
theorem standAt?_induction {motive : Stand → Prop} {p : List Nat}
    (root : ∀ e ∈ entries, ∀ s, schemaStand? e = some s → motive s)
    (step : ∀ s, motive s → ∀ c ∈ s.children h, motive c)
    (hp : standAt? h entries p = some s) : motive s := by
  have hdescend {p : List Nat} {t s : Stand} (ht : motive t) (hd : t.descend h p = some s) :
      motive s := by
    induction p generalizing t with
    | nil =>
      cases hd
      exact ht
    | cons i p ih =>
      obtain ⟨c, hc, hd⟩ := Option.bind_eq_some_iff.mp hd
      exact ih (step t ht c (List.mem_of_getElem? hc)) hd
  cases p with
  | nil => cases hp
  | cons i p =>
    obtain ⟨t, ht, hd⟩ := Option.bind_eq_some_iff.mp hp
    obtain ⟨e, he, hs⟩ := Option.bind_eq_some_iff.mp ht
    exact hdescend (root e (List.mem_of_getElem? he) t hs) hd

/-- What stops lowering at a position: a key that cannot be written, or the end of a chain. -/
inductive StopsAt (h : Heap) (limit : Int) (entries : Entries) : List Nat → LoweringError → Prop
  | key {i : Nat} {k : Scalar} {v : Value} (hi : entries[i]? = some (k, v))
      (hk : k.text? = none) : StopsAt h limit entries [i] .numberTooLong
  | chain {p : List Nat} {s : Stand} {e : LoweringError} (hp : standAt? h entries p = some s)
      (hs : s.stop? h limit = some e) : StopsAt h limit entries p e

/-- The stops below an entry of the schemas mapping, by position. -/
def entryStopAt (h : Heap) (limit : Int) (e : Scalar × Value) (p : List Nat) :
    Option LoweringError :=
  match e.1.text? with
  | none => if p = [] then some .numberTooLong else none
  | some name => (e.2.mapping?.map (Stand.ofSchema name)).bind fun s => s.stopAt h limit p

theorem stopsAt_iff {p : List Nat} {e : LoweringError} :
    StopsAt h limit entries p e ↔ among (entryStopAt h limit) entries p = some e := by
  constructor
  · rintro (⟨hi, hk⟩ | ⟨hp, hs⟩)
    · simp [among, entryStopAt, hi, hk]
    · cases p with
      | nil => cases hp
      | cons i p =>
        obtain ⟨t, ht, hd⟩ := Option.bind_eq_some_iff.mp hp
        obtain ⟨⟨k, v⟩, hi, hkv⟩ := Option.bind_eq_some_iff.mp ht
        obtain ⟨name, hn, hv⟩ := Option.bind_eq_some_iff.mp hkv
        simp only at hn hv
        simp [among, entryStopAt, hi, hn, hv, Stand.stopAt, hd, hs]
  · intro ha
    cases p with
    | nil => cases ha
    | cons i p =>
      obtain ⟨⟨k, v⟩, hi, he⟩ := Option.bind_eq_some_iff.mp ha
      cases hk : k.text? with
      | none =>
        simp only [entryStopAt, hk, Option.ite_none_right_eq_some, Option.some.injEq] at he
        obtain ⟨rfl, rfl⟩ := he
        exact .key hi hk
      | some name =>
        simp only [entryStopAt, hk] at he
        obtain ⟨t, ht, hs⟩ := Option.bind_eq_some_iff.mp he
        obtain ⟨s, hd, hs⟩ := Option.bind_eq_some_iff.mp hs
        refine .chain (s := s) ?_ hs
        simp [standAt?, schemaStand?, hi, hk, ht, hd]

/-- The declaration of a schema fails as the visit of the schema does. -/
theorem error?_declaration (name : String) (node : Address) :
    (declaration h limit node ⟨name, schemaPath name⟩).error? =
      ((Stand.ofSchema name node).visit h limit).error? := by
  rw [Stand.visit, if_pos (by rfl), Traced.error?_bind_of_forall (e := none) fun d => rfl,
    Option.or_none]
  rfl

theorem finds_entry (e : Scalar × Value) :
    Finds (entry h limit e).error? (entryStopAt h limit e) := by
  obtain ⟨k, v⟩ := e
  cases hk : k.text? with
  | none =>
    rw [entry, hk]
    exact ⟨[], by simp [entryStopAt, hk], fun q hq => (List.not_lt_nil q hq).elim⟩
  | some name =>
    have hg : entryStopAt h limit (k, v) = fun p =>
        (v.mapping?.map (Stand.ofSchema name)).bind fun s => s.stopAt h limit p := by
      funext p
      simp [entryStopAt, hk]
    rw [hg, entry, hk]
    cases v with
    | map node =>
      change Finds (do
        return some (← declaration h limit node ⟨name, schemaPath name⟩)).error? _
      rw [Traced.error?_bind_of_forall (e := none) fun d => rfl, Option.or_none,
        error?_declaration]
      exact Stand.finds_visit _
    | _ => exact fun p => rfl

theorem finds_schemas :
    Finds (schemas h limit entries).error? (among (entryStopAt h limit) entries) := by
  rw [schemas, Traced.error?_collect]
  exact First.finds_findSome? fun x _ => finds_entry x

/-- Lowering fails with an error exactly when that is the error of its first stop. -/
theorem schemas_error_iff {e : LoweringError} :
    (schemas h limit entries).outcome = .error e ↔
      ∃ p, StopsAt h limit entries p e ∧ ∀ q < p, ∀ e', ¬ StopsAt h limit entries q e' := by
  rw [← Traced.error?_eq_some, finds_schemas.eq_some_iff]
  simp only [IsFirst, stopsAt_iff, Option.eq_none_iff_forall_ne_some, ne_eq]

/-- Lowering goes through exactly when nothing stops it. -/
theorem schemas_ok_iff :
    (∃ ds, (schemas h limit entries).outcome = .ok ds) ↔
      ∀ p e, ¬ StopsAt h limit entries p e := by
  rw [← Traced.error?_eq_none, finds_schemas.eq_none_iff]
  simp only [stopsAt_iff, Option.eq_none_iff_forall_ne_some, ne_eq]

theorem standAt?_append {p : List Nat} (hp : standAt? h entries p = some s) (q : List Nat) :
    standAt? h entries (p ++ q) = s.descend h q := by
  cases p with
  | nil => cases hp
  | cons i p =>
    obtain ⟨t, ht, hp⟩ := Option.bind_eq_some_iff.mp hp
    rw [List.cons_append, standAt?, ht]
    exact Stand.descend_append hp q

/-- When lowering goes through, every visit in it does. -/
theorem error?_visit_of_ok {ds : List Declaration} {p : List Nat}
    (hok : (schemas h limit entries).outcome = .ok ds) (hp : standAt? h entries p = some s) :
    (s.visit h limit).error? = none := by
  rw [(Stand.finds_visit s).eq_none_iff]
  intro q
  cases hs : s.stopAt h limit q with
  | none => rfl
  | some e =>
    obtain ⟨c, hc, he⟩ := Option.bind_eq_some_iff.mp hs
    have hq : standAt? h entries (p ++ q) = some c := (standAt?_append hp q).trans hc
    exact (schemas_ok_iff.mp ⟨ds, hok⟩ _ _ (.chain hq he)).elim

theorem StopsAt.unique {p : List Nat} {e e' : LoweringError} (hs : StopsAt h limit entries p e)
    (hs' : StopsAt h limit entries p e') : e = e' :=
  Option.some.inj ((stopsAt_iff.mp hs).symm.trans (stopsAt_iff.mp hs'))

end SchemaCompiler.Lowering
