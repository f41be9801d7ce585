import Mathlib.Data.List.Forall2
import Mathlib.Data.Option.Basic
import SchemaCompiler.Config.Decoded

/-!
Values that are alike: with the same scalars in the same places, whatever their addresses. What is
decoded from a value is the same for all values like it.
-/
namespace SchemaCompiler

variable {h h' : Heap} {v w : Value} {es fs : Entries} {name : String} {spellings : List String}

/-- A relation between the values of two heaps that holds of equal scalars, and of containers of one
kind with equal keys and related parts. -/
structure Heap.Matching (h h' : Heap) (R : Value → Value → Prop) : Prop where
  scalar : ∀ s w, R (.scalar s) w → w = .scalar s
  list : ∀ a w, R (.list a) w → ∃ b, w = .list b ∧ List.Forall₂ R (h.items a) (h'.items b)
  map : ∀ a w, R (.map a) w → ∃ b, w = .map b ∧
    List.Forall₂ (fun e f => e.1 = f.1 ∧ R e.2 f.2) (h.entries a) (h'.entries b)
  set : ∀ a w, R (.set a) w → ∃ b, w = .set b ∧ h.members a = h'.members b
  pair : ∀ a w, R (.pair a) w → ∃ b, w = .pair b ∧ List.Forall₂ R (h.items a) (h'.items b)

/-- Two values that nothing but addresses tells apart. -/
def Alike (h h' : Heap) (v w : Value) : Prop := ∃ R, h.Matching h' R ∧ R v w

/-- Entries with the same keys, whose values are alike. -/
def Entries.Alike (h h' : Heap) (es fs : Entries) : Prop :=
  List.Forall₂ (fun e f => e.1 = f.1 ∧ SchemaCompiler.Alike h h' e.2 f.2) es fs

theorem alike_scalar (h h' : Heap) (s : Scalar) : Alike h h' (.scalar s) (.scalar s) := by
  refine ⟨fun v w => ∃ s, v = .scalar s ∧ w = .scalar s, ⟨?_, ?_, ?_, ?_, ?_⟩, s, rfl, rfl⟩
  · rintro s w ⟨_, hs, rfl⟩
    exact hs.symm
  all_goals
    rintro a w ⟨_, hs, _⟩
    cases hs

theorem Alike.entries {a : Address} (hv : Alike h h' (.map a) w) :
    ∃ b, w = .map b ∧ Entries.Alike h h' (h.entries a) (h'.entries b) := by
  obtain ⟨R, hR, hrel⟩ := hv
  obtain ⟨b, rfl, hentries⟩ := hR.map a w hrel
  exact ⟨b, rfl, hentries.imp fun e f hef => ⟨hef.1, R, hR, hef.2⟩⟩

/-- What can be alike: equal scalars, and containers of one kind. -/
theorem Alike.cases (hv : Alike h h' v w) : (∃ s, v = .scalar s ∧ w = .scalar s) ∨
    (∃ a b, v = .map a ∧ w = .map b ∧ Entries.Alike h h' (h.entries a) (h'.entries b)) ∨
    (∃ a b, v = .list a ∧ w = .list b) ∨ (∃ a b, v = .set a ∧ w = .set b) ∨
    ∃ a b, v = .pair a ∧ w = .pair b := by
  have hentries {a : Address} (hva : v = .map a) := Alike.entries (hva ▸ hv)
  obtain ⟨R, hR, hrel⟩ := hv
  cases v with
  | scalar s => exact .inl ⟨s, rfl, hR.scalar s w hrel⟩
  | map a =>
    obtain ⟨b, rfl, hab⟩ := hentries rfl
    exact .inr (.inl ⟨a, b, rfl, rfl, hab⟩)
  | list a =>
    obtain ⟨b, rfl, _⟩ := hR.list a w hrel
    exact .inr (.inr (.inl ⟨a, b, rfl, rfl⟩))
  | set a =>
    obtain ⟨b, rfl, _⟩ := hR.set a w hrel
    exact .inr (.inr (.inr (.inl ⟨a, b, rfl, rfl⟩)))
  | pair a =>
    obtain ⟨b, rfl, _⟩ := hR.pair a w hrel
    exact .inr (.inr (.inr (.inr ⟨a, b, rfl, rfl⟩)))

namespace Entries

/-- The keys of some entries, in their order. -/
def keys (es : Entries) : List Scalar := es.map (·.1)

theorem keys_cons (key : Scalar) (v : Value) (es : Entries) :
    Entries.keys ((key, v) :: es) = key :: es.keys := rfl

theorem keys_append (es fs : Entries) : Entries.keys (es ++ fs) = es.keys ++ fs.keys :=
  List.map_append

theorem Alike.keys_eq (hes : Entries.Alike h h' es fs) : es.keys = fs.keys := by
  induction hes with
  | nil => rfl
  | cons hef _ ih => exact congrArg₂ List.cons hef.1 ih

theorem Alike.append {es₂ fs₂ : Entries} (hes : Entries.Alike h h' es fs)
    (hes₂ : Entries.Alike h h' es₂ fs₂) : Entries.Alike h h' (es ++ es₂) (fs ++ fs₂) :=
  List.rel_append hes hes₂

theorem find?_eq_none : es.find? name = none ↔ .str name ∉ es.keys := by
  induction es with
  | nil => simp [find?, keys]
  | cons e rest ih =>
    obtain ⟨k, v⟩ := e
    rw [find?_cons, keys_cons, List.mem_cons, not_or, ← ih]
    split
    · next hk => simp [hk]
    · next hk => simp [Ne.symm hk]

theorem find?_append (es fs : Entries) (name : String) :
    Entries.find? (es ++ fs) name = (es.find? name).or (fs.find? name) := by
  induction es with
  | nil => rfl
  | cons e rest ih =>
    obtain ⟨k, v⟩ := e
    rw [List.cons_append, find?_cons, find?_cons, ih]
    split <;> rfl

/-- The first entry with a key is the one that is found. -/
theorem find?_first {before : Entries} (hfirst : .str name ∉ before.keys) (v : Value)
    (after : Entries) : Entries.find? (before ++ (.str name, v) :: after) name = some v := by
  rw [find?_append, find?_eq_none.mpr hfirst, find?_cons, if_pos rfl]
  rfl

theorem Alike.find? (hes : Entries.Alike h h' es fs) (name : String) :
    Option.Rel (SchemaCompiler.Alike h h') (es.find? name) (fs.find? name) := by
  induction hes with
  | nil => exact .none
  | @cons e f _ _ hef _ ih =>
    obtain ⟨k, v⟩ := e
    obtain ⟨k', w⟩ := f
    obtain ⟨rfl, hvw⟩ : k = k' ∧ _ := hef
    rw [find?_cons, find?_cons]
    split
    · exact .some hvw
    · exact ih

end Entries

namespace Config

theorem spelled?_cons (es : Entries) (spelling : String) (rest : List String) :
    spelled? es (spelling :: rest) =
      ((es.find? spelling).map (spelling, ·)).or (spelled? es rest) := by
  rw [spelled?]
  cases es.find? spelling <;> rfl

theorem spelled?_eq_none : spelled? es spellings = none ↔ ∀ s ∈ spellings, es.find? s = none := by
  induction spellings with
  | nil => simp [spelled?]
  | cons spelling rest ih => simp [spelled?_cons, ih]

theorem spelled?_append (es : Entries) (more rest : List String) :
    spelled? es (more ++ rest) = (spelled? es more).or (spelled? es rest) := by
  induction more with
  | nil => rfl
  | cons spelling more ih => rw [List.cons_append, spelled?_cons, spelled?_cons, ih, Option.or_assoc]

/-- The spelling that is taken: it is there, and none that comes before it is. -/
theorem spelled?_eq_some : spelled? es spellings = some (name, v) ↔ ∃ before after,
    spellings = before ++ name :: after ∧ (∀ s ∈ before, es.find? s = none) ∧
      es.find? name = some v := by
  constructor
  · intro hspelled
    induction spellings with
    | nil => cases hspelled
    | cons spelling rest ih =>
      rw [spelled?_cons] at hspelled
      cases hfind : es.find? spelling with
      | none =>
        rw [hfind] at hspelled
        obtain ⟨before, after, rfl, hbefore, hname⟩ := ih hspelled
        exact ⟨spelling :: before, after, rfl, List.forall_mem_cons.mpr ⟨hfind, hbefore⟩, hname⟩
      | some u =>
        rw [hfind] at hspelled
        cases hspelled
        exact ⟨[], rest, rfl, nofun, hfind⟩
  · rintro ⟨before, after, rfl, hbefore, hname⟩
    rw [spelled?_append, spelled?_eq_none.mpr hbefore, spelled?_cons, hname]
    rfl

theorem spelled?_congr (hfind : ∀ s ∈ spellings, es.find? s = fs.find? s) :
    spelled? es spellings = spelled? fs spellings := by
  induction spellings with
  | nil => rfl
  | cons spelling rest ih =>
    obtain ⟨hspelling, hrest⟩ := List.forall_mem_cons.mp hfind
    rw [spelled?_cons, spelled?_cons, hspelling, ih hrest]

/-- An entry that is no spelling of a field does not matter to it. -/
theorem spelled?_insert {before after : Entries} (hname : name ∉ spellings) (w : Value) :
    spelled? (before ++ (.str name, w) :: after) spellings = spelled? (before ++ after) spellings := by
  refine spelled?_congr fun s hs => ?_
  have hne : (Scalar.str name) ≠ .str s := by
    rintro ⟨rfl⟩
    exact hname hs
  rw [Entries.find?_append, Entries.find?_append, Entries.find?_cons, if_neg hne]

/-- Two readings of a field: of none, or of values that are alike under one spelling. -/
def ReadAlike (h h' : Heap) : Option (String × Value) → Option (String × Value) → Prop :=
  Option.Rel fun x y => x.1 = y.1 ∧ Alike h h' x.2 y.2

theorem readAlike_spelled? (hes : Entries.Alike h h' es fs) (spellings : List String) :
    ReadAlike h h' (spelled? es spellings) (spelled? fs spellings) := by
  induction spellings with
  | nil => exact .none
  | cons spelling rest ih =>
    have hfind := hes.find? spelling
    rw [spelled?_cons, spelled?_cons]
    generalize es.find? spelling = x at hfind ⊢
    generalize fs.find? spelling = y at hfind ⊢
    cases hfind with
    | none => exact ih
    | some hvw => exact .some ⟨rfl, hvw⟩

/-- A decoder that cannot tell values apart that are alike. -/
def Faithful {α : Type} (d : Decoder α) : Prop :=
  ∀ h h' v w, Alike h h' v w → d h v = d h' w

theorem faithful_text : Faithful text := by
  intro h h' v w hvw
  rcases hvw.cases with ⟨s, rfl, rfl⟩ | ⟨a, b, rfl, rfl, _⟩ | ⟨a, b, rfl, rfl⟩ | ⟨a, b, rfl, rfl⟩ |
    ⟨a, b, rfl, rfl⟩
  all_goals rfl

theorem faithful_nonEmptyText : Faithful nonEmptyText := by
  intro h h' v w hvw
  rw [nonEmptyText, nonEmptyText, faithful_text h h' v w hvw]

theorem faithful_truth : Faithful truth := by
  intro h h' v w hvw
  rcases hvw.cases with ⟨s, rfl, rfl⟩ | ⟨a, b, rfl, rfl, _⟩ | ⟨a, b, rfl, rfl⟩ | ⟨a, b, rfl, rfl⟩ |
    ⟨a, b, rfl, rfl⟩
  all_goals rfl

theorem Faithful.orNull {α : Type} {d : Decoder α} (hd : Faithful d) : Faithful (orNull d) := by
  intro h h' v w hvw
  have hsame := hd h h' v w hvw
  rcases hvw.cases with ⟨s, rfl, rfl⟩ | ⟨a, b, rfl, rfl, _⟩ | ⟨a, b, rfl, rfl⟩ | ⟨a, b, rfl, rfl⟩ |
    ⟨a, b, rfl, rfl⟩
  · cases s with
    | null => rfl
    | _ => exact congrArg (some <$> ·) hsame
  all_goals exact congrArg (some <$> ·) hsame

theorem namedEntries_alike {α : Type} {d : Decoder α} (hd : Faithful d)
    (hes : Entries.Alike h h' es fs) : namedEntries d h es = namedEntries d h' fs := by
  induction hes with
  | nil => rfl
  | @cons e f _ _ hef _ ih =>
    obtain ⟨k, v⟩ := e
    obtain ⟨k', w⟩ := f
    obtain ⟨rfl, hvw⟩ : k = k' ∧ _ := hef
    have hname : text h (.scalar k) = text h' (.scalar k) :=
      faithful_text h h' _ _ (alike_scalar h h' k)
    rw [namedEntries, namedEntries, namedEntry, namedEntry, hd h h' v w hvw, hname, ih]

theorem Faithful.table {α : Type} {d : Decoder α} (hd : Faithful d) : Faithful (table d) := by
  intro h h' v w hvw
  rcases hvw.cases with ⟨s, rfl, rfl⟩ | ⟨a, b, rfl, rfl, hes⟩ | ⟨a, b, rfl, rfl⟩ | ⟨a, b, rfl, rfl⟩ |
    ⟨a, b, rfl, rfl⟩
  · rfl
  · rw [Config.table, Config.table]
    dsimp only
    rw [namedEntries_alike hd hes]
  all_goals rfl

end Config

end SchemaCompiler
