/-! Values by name. -/
namespace SchemaCompiler

/-- Values by name, in the order in which the names first came up. -/
structure Table (α : Type) where
  pairs : List (String × α)

namespace Table

def empty : Table α := ⟨[]⟩

def ofList (pairs : List (String × α)) : Table α := ⟨pairs⟩

def get? (t : Table α) (name : String) : Option α := t.pairs.lookup name

def contains (t : Table α) (name : String) : Bool := (t.get? name).isSome

def names (t : Table α) : List String := t.pairs.map (·.1)

private def put (name : String) (a : α) : List (String × α) → List (String × α)
  | [] => [(name, a)]
  | (n, b) :: rest => if n == name then (name, a) :: rest else (n, b) :: put name a rest

/-- Sets the value of a name; a name that is there keeps its place. -/
def insert (t : Table α) (name : String) (a : α) : Table α := ⟨put name a t.pairs⟩

private theorem lookup_cons (n other : String) (b : α) (rest : List (String × α)) :
    ((n, b) :: rest).lookup other = if other = n then some b else rest.lookup other := by
  rw [List.lookup_cons]
  by_cases h : other = n
  · simp [h]
  · rw [beq_false_of_ne h, if_neg h]

private theorem lookup_put (name other : String) (a : α) (pairs : List (String × α)) :
    (put name a pairs).lookup other = if other = name then some a else pairs.lookup other := by
  induction pairs with
  | nil => exact lookup_cons name other a []
  | cons pair rest ih =>
    obtain ⟨n, b⟩ := pair
    rw [put]
    split
    · next hn =>
      rw [lookup_cons, lookup_cons, beq_iff_eq.mp hn]
      split <;> rfl
    · next hn =>
      have hne : n ≠ name := fun h => hn (beq_iff_eq.mpr h)
      rw [lookup_cons, lookup_cons, ih]
      by_cases h : other = n
      · rw [if_pos h, if_pos h, if_neg (h ▸ hne)]
      · rw [if_neg h, if_neg h]

theorem get?_insert (t : Table α) (name other : String) (a : α) :
    (t.insert name a).get? other = if other = name then some a else t.get? other :=
  lookup_put name other a t.pairs

private theorem put_put (name : String) (a b : α) (pairs : List (String × α)) :
    put name b (put name a pairs) = put name b pairs := by
  induction pairs with
  | nil => simp [put]
  | cons pair rest ih =>
    obtain ⟨n, c⟩ := pair
    rw [put, put]
    by_cases hn : (n == name) = true
    · rw [if_pos hn, put, if_pos (beq_self_eq_true name), if_pos hn]
    · rw [if_neg hn, put, if_neg hn, ih, if_neg hn]

private theorem put_comm {name other : String} (hne : name ≠ other) (a b : α)
    {pairs : List (String × α)} (hname : name ∈ pairs.map (·.1)) :
    put other b (put name a pairs) = put name a (put other b pairs) := by
  induction pairs with
  | nil => cases hname
  | cons pair rest ih =>
    obtain ⟨n, c⟩ := pair
    by_cases hn : n = name
    · subst hn
      simp [put, hne]
    · have hrest : name ∈ rest.map (·.1) := (List.mem_cons.mp hname).resolve_left (Ne.symm hn)
      by_cases hother : n = other
      · subst hother
        simp [put, hn]
      · simp [put, hn, hother, ih hrest]

private theorem mem_names_put (name other : String) (a : α) (pairs : List (String × α)) :
    other ∈ (put name a pairs).map (·.1) ↔ other = name ∨ other ∈ pairs.map (·.1) := by
  induction pairs with
  | nil => simp [put]
  | cons pair rest ih =>
    obtain ⟨n, c⟩ := pair
    rw [put]
    by_cases hn : n = name
    · subst hn
      simp
    · rw [if_neg (mt beq_iff_eq.mp hn), List.map_cons, List.mem_cons, ih, List.map_cons,
        List.mem_cons, or_left_comm]

/-- A value that is set twice is the one that was set last. -/
theorem insert_insert (t : Table α) (name : String) (a b : α) :
    (t.insert name a).insert name b = t.insert name b :=
  congrArg mk (put_put name a b t.pairs)

/-- Where a name is there already, it keeps its place, so another name may be set first. -/
theorem insert_comm {t : Table α} {name other : String} (hne : name ≠ other) (a b : α)
    (hname : name ∈ t.names) :
    (t.insert name a).insert other b = (t.insert other b).insert name a :=
  congrArg mk (put_comm hne a b hname)

theorem mem_names_insert {t : Table α} {name other : String} {a : α} :
    other ∈ (t.insert name a).names ↔ other = name ∨ other ∈ t.names :=
  mem_names_put name other a t.pairs

/-- The pairs sorted by name. -/
def sorted (t : Table α) : List (String × α) := t.pairs.mergeSort (·.1 ≤ ·.1)

end Table

end SchemaCompiler
