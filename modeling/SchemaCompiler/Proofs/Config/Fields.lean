import SchemaCompiler.Proofs.Config.Alike
import SchemaCompiler.Proofs.Config.Decoding

/-!
Mappings with known fields. A field is read from the first of its spellings that a mapping has, and the
entries that no field has taken are left over. A decoding of a mapping varies as the reading of one of
its fields does.
-/
namespace SchemaCompiler.Config

open Decoded

variable {α β : Type} {h h' : Heap} {es es' : Entries} {name : String}
  {own own' : List Problem}

/-- A field of a mapping: its spellings, what reads its value, and what it is without one. -/
structure FieldReader where
  spellings : List String
  Result : Type
  decoder : Decoder Result
  absent : Decoded Result

namespace FieldReader

def optional (d : Decoder α) (default : α) (spellings : List String) : FieldReader :=
  ⟨spellings, α, d, .value default⟩

def required (d : Decoder α) (spellings : List String) : FieldReader :=
  ⟨spellings, α, d, (Decoded.fail .missing).within (.name (spellings.headD ""))⟩

variable {f : FieldReader}

def read (f : FieldReader) (h : Heap) (es : Entries) : Decoded f.Result :=
  match spelled? es f.spellings with
  | some (spelling, v) => (f.decoder h v).within (.name spelling)
  | none => f.absent

theorem read_some {v : Value} (hread : spelled? es f.spellings = some (name, v)) (h : Heap) :
    f.read h es = (f.decoder h v).within (.name name) := by
  rw [read, hread]

theorem read_alike (hf : Faithful f.decoder)
    (hread : ReadAlike h h' (spelled? es f.spellings) (spelled? es' f.spellings)) :
    f.read h es = f.read h' es' := by
  rw [read, read]
  generalize spelled? es f.spellings = x at hread ⊢
  generalize spelled? es' f.spellings = y at hread ⊢
  cases hread with
  | none => rfl
  | @some x y hxy =>
    obtain ⟨name, v⟩ := x
    obtain ⟨name', w⟩ := y
    obtain ⟨rfl, hvw⟩ : name = name' ∧ _ := hxy
    exact congrArg (within (.name name)) (hf h h' v w hvw)

end FieldReader

/-- A decoding of entries that reads some fields, each once: it depends on nothing else, and varies as
the reading of one field does. -/
structure Reads (fields : List FieldReader) (p : Heap → Entries → Decoded α) : Prop where
  congr : ∀ {h h' es es'}, (∀ f ∈ fields, f.read h es = f.read h' es') → p h es = p h' es'
  varies : ∀ {h h' es es' own own'}, ∀ f ∈ fields,
    (∀ g ∈ fields, g.spellings ≠ f.spellings → g.read h es = g.read h' es') →
    Varies own own' (f.read h es) (f.read h' es') → Varies own own' (p h es) (p h' es')

theorem reads_field (f : FieldReader) : Reads [f] f.read where
  congr hsame := hsame f List.mem_cons_self
  varies g hg _ hvaries := by
    cases List.mem_singleton.mp hg
    exact hvaries

theorem reads_optional (d : Decoder α) (default : α) (spellings : List String) :
    Reads [.optional d default spellings] fun h es => optionalField d default h es spellings :=
  reads_field (.optional d default spellings)

theorem reads_required (d : Decoder α) (spellings : List String) :
    Reads [.required d spellings] fun h es => requiredField d h es spellings :=
  reads_field (.required d spellings)

variable {fields more : List FieldReader} {p : Heap → Entries → Decoded α}

theorem Reads.map (hp : Reads fields p) (g : α → β) : Reads fields fun h es => g <$> p h es where
  congr hsame := congrArg (g <$> ·) (hp.congr hsame)
  varies f hf hothers hvaries := (hp.varies f hf hothers hvaries).map g

/-- Two decodings side by side that read different fields. -/
theorem Reads.seq {p : Heap → Entries → Decoded (α → β)} {q : Heap → Entries → Decoded α}
    (hp : Reads fields p) (hq : Reads more q)
    (hdistinct : ∀ f ∈ fields, ∀ g ∈ more, f.spellings ≠ g.spellings) :
    Reads (fields ++ more) fun h es => p h es <*> q h es where
  congr hsame := by
    rw [hp.congr fun f hf => hsame f (List.mem_append_left _ hf),
      hq.congr fun f hf => hsame f (List.mem_append_right _ hf)]
  varies f hf hothers hvaries := by
    have hleft := fun g hg => hothers g (List.mem_append_left more hg)
    have hright := fun g hg => hothers g (List.mem_append_right fields hg)
    rcases List.mem_append.mp hf with hf | hf
    · rw [hq.congr fun g hg => hright g hg (hdistinct f hf g hg).symm]
      exact (hp.varies f hf hleft hvaries).seq_left _
    · rw [hp.congr fun g hg => hleft g hg (hdistinct g hg f hf)]
      exact (hq.varies f hf hright hvaries).seq_right _

/-- The spellings that fields are read from. -/
def takenNames (es : Entries) (fields : List (List String)) : List String :=
  fields.filterMap fun spellings => (spelled? es spellings).map (·.1)

/-- The value of a field is that of the spelling which is taken. -/
theorem spelled?_of_name {spellings : List String} {v : Value}
    (hname : (spelled? es spellings).map (·.1) = some name) (hfind : es.find? name = some v) :
    spelled? es spellings = some (name, v) := by
  cases hspelled : spelled? es spellings with
  | none =>
    rw [hspelled] at hname
    cases hname
  | some reading =>
    obtain ⟨taken, u⟩ := reading
    rw [hspelled] at hname
    cases hname
    obtain ⟨_, _, _, _, hu⟩ := spelled?_eq_some.mp hspelled
    rw [Option.some.inj (hu.symm.trans hfind)]

/-- What is said of a key when the spellings that fields are read from are known. -/
def stray? (taken : List String) : Scalar → Option Problem
  | .str name => if taken.contains name then none else some ⟨[.name name], .notAllowed⟩
  | key => some ⟨[.ofKey key], .keyNotText⟩

theorem leftovers_eq (es : Entries) (fields : List (List String)) :
    leftovers es fields = es.keys.filterMap (stray? (takenNames es fields)) := by
  rw [Entries.keys, List.filterMap_map]
  refine List.filterMap_congr fun e _ => ?_
  obtain ⟨key, v⟩ := e
  cases key <;> rfl

theorem mem_takenNames {fields : List (List String)} : name ∈ takenNames es fields ↔
    ∃ spellings ∈ fields, ∃ v, spelled? es spellings = some (name, v) := by
  simp [takenNames, Option.map_eq_some_iff]

theorem ReadAlike.name_eq {x y : Option (String × Value)} (hxy : ReadAlike h h' x y) :
    x.map (·.1) = y.map (·.1) := by
  cases hxy with
  | none => rfl
  | some hxy => exact congrArg some hxy.1

/-- The spellings that are taken go by the keys. -/
theorem spelledName_congr (hkeys : es.keys = es'.keys) (spellings : List String) :
    (spelled? es spellings).map (·.1) = (spelled? es' spellings).map (·.1) := by
  induction spellings with
  | nil => rfl
  | cons spelling rest ih =>
    rw [spelled?_cons, spelled?_cons]
    have hfind : es.find? spelling = none ↔ es'.find? spelling = none := by
      rw [Entries.find?_eq_none, Entries.find?_eq_none, hkeys]
    cases hx : es.find? spelling <;> cases hy : es'.find? spelling
    · exact ih
    · cases (hfind.mp hx).symm.trans hy
    · cases (hfind.mpr hy).symm.trans hx
    · rfl

theorem leftovers_congr (hkeys : es.keys = es'.keys) (fields : List (List String)) :
    leftovers es fields = leftovers es' fields := by
  have htaken : takenNames es fields = takenNames es' fields :=
    List.filterMap_congr fun spellings _ => spelledName_congr hkeys spellings
  rw [leftovers_eq, leftovers_eq, htaken, hkeys]

theorem record_map (fields : List (List String)) (p : Heap → Entries → Decoded α) (h : Heap)
    (a : Address) :
    record fields p h (.map a) = (p h (h.entries a)).spoil (leftovers (h.entries a) fields) := rfl

/-- A mapping whose entries are alike is decoded to the same. -/
theorem faithful_record (hp : Reads fields p) (hfields : ∀ f ∈ fields, Faithful f.decoder) :
    Faithful (record (fields.map (·.spellings)) p) := by
  intro h h' v w hvw
  rcases hvw.cases with ⟨s, rfl, rfl⟩ | ⟨a, b, rfl, rfl, hes⟩ | ⟨a, b, rfl, rfl⟩ | ⟨a, b, rfl, rfl⟩ |
    ⟨a, b, rfl, rfl⟩
  · rfl
  · have hsame : p h (h.entries a) = p h' (h'.entries b) :=
      hp.congr fun f hf => FieldReader.read_alike (hfields f hf) (readAlike_spelled? hes _)
    rw [record_map, record_map, hsame, leftovers_congr hes.keys_eq]
  all_goals rfl

/-- A mapping in which one field is read differently, and nothing else. -/
theorem varies_record (hp : Reads fields p) {a a' : Address} {f : FieldReader} (hf : f ∈ fields)
    (hothers : ∀ g ∈ fields, g.spellings ≠ f.spellings →
      g.read h (h.entries a) = g.read h' (h'.entries a'))
    (hleft : leftovers (h.entries a) (fields.map (·.spellings)) =
      leftovers (h'.entries a') (fields.map (·.spellings)))
    (hvaries : Varies own own' (f.read h (h.entries a)) (f.read h' (h'.entries a'))) :
    Varies own own' (record (fields.map (·.spellings)) p h (.map a))
      (record (fields.map (·.spellings)) p h' (.map a')) := by
  rw [record_map, record_map, hleft]
  exact (hp.varies f hf hothers hvaries).spoil _

end SchemaCompiler.Config
