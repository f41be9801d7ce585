import SchemaCompiler.Proofs.Config.Models

/-!
Spellings of one field. Where a model has one spelling of a field, any other spelling does as well: the
same document is read, or the same problems are found, with the other spelling in the locations of those
that are about the field.
-/
namespace SchemaCompiler.Config

open Decoded

variable {h h' : Heap} {v v' : Value} {path : List Scalar} {m : Model} {es es' : Entries}
  {a a' : Address} {spellings : List String} {name old new : String}

/-- Entries with one key in another spelling, in its place, where no other spelling is there. -/
def Respelled (h h' : Heap) (spellings : List String) (old new : String) (es es' : Entries) : Prop :=
  ∃ (before after before' after' : Entries) (v v' : Value), es = before ++ (.str old, v) :: after ∧
    es' = before' ++ (.str new, v') :: after' ∧ Entries.Alike h h' before before' ∧
    Alike h h' v v' ∧ Entries.Alike h h' after after' ∧
    ∀ s ∈ spellings, .str s ∉ before.keys ∧ .str s ∉ after.keys

/-- The only spelling that is there is taken. -/
theorem spelled?_only (hname : name ∈ spellings) (hfind : es.find? name = some v)
    (hothers : ∀ s ∈ spellings, s ≠ name → es.find? s = none) :
    spelled? es spellings = some (name, v) := by
  induction spellings with
  | nil => cases hname
  | cons spelling rest ih =>
    obtain ⟨hspelling, hrest⟩ := List.forall_mem_cons.mp hothers
    rw [spelled?_cons]
    by_cases heq : spelling = name
    · rw [heq, hfind]
      rfl
    · rw [hspelling heq]
      exact ih ((List.mem_cons.mp hname).resolve_left (Ne.symm heq)) hrest

theorem spelled?_single {before after : Entries} (hname : name ∈ spellings)
    (halone : ∀ s ∈ spellings, .str s ∉ before.keys ∧ .str s ∉ after.keys) :
    spelled? (before ++ (.str name, v) :: after) spellings = some (name, v) := by
  refine spelled?_only hname (Entries.find?_first (halone name hname).1 v after) fun s hs hne => ?_
  obtain ⟨hbefore, hafter⟩ := halone s hs
  rw [Entries.find?_append, Entries.find?_eq_none.mpr hbefore, Entries.find?_cons,
    if_neg (by simpa using hne.symm), Entries.find?_eq_none.mpr hafter]
  rfl

namespace Respelled

/-- The field is read from the other spelling, with a value that is alike. -/
theorem exists_value (hes : Respelled h h' spellings old new es es') (hold : old ∈ spellings)
    (hnew : new ∈ spellings) : ∃ v v', Alike h h' v v' ∧
      spelled? es spellings = some (old, v) ∧ spelled? es' spellings = some (new, v') := by
  obtain ⟨before, after, before', after', v, v', rfl, rfl, hbefore, hv, hafter, halone⟩ := hes
  have halone' : ∀ s ∈ spellings, .str s ∉ before'.keys ∧ .str s ∉ after'.keys := by
    rwa [← hbefore.keys_eq, ← hafter.keys_eq]
  exact ⟨v, v', hv, spelled?_single hold halone, spelled?_single hnew halone'⟩

/-- A field that has neither spelling is read as it was. -/
theorem readAlike (hes : Respelled h h' spellings old new es es') {others : List String}
    (hold : old ∉ others) (hnew : new ∉ others) :
    ReadAlike h h' (spelled? es others) (spelled? es' others) := by
  obtain ⟨before, after, before', after', v, v', rfl, rfl, hbefore, _, hafter, _⟩ := hes
  rw [spelled?_insert hold, spelled?_insert hnew]
  exact readAlike_spelled? (hbefore.append hafter) _

theorem exists_keys (hes : Respelled h h' spellings old new es es') : ∃ before after,
    es.keys = before ++ .str old :: after ∧ es'.keys = before ++ .str new :: after ∧
      ∀ s ∈ spellings, .str s ∉ before ∧ .str s ∉ after := by
  obtain ⟨before, after, before', after', v, v', rfl, rfl, hbefore, _, hafter, halone⟩ := hes
  refine ⟨before.keys, after.keys, ?_, ?_, halone⟩
  · rw [Entries.keys_append, Entries.keys_cons]
  · rw [hbefore.keys_eq, hafter.keys_eq, Entries.keys_append, Entries.keys_cons]

end Respelled

/-- What is said of a key that is no spelling of a field does not depend on how that field is spelled. -/
theorem stray?_congr {fields : List (List String)} {key : Scalar}
    (hothers : ∀ others ∈ fields, others ≠ spellings →
      (spelled? es others).map (·.1) = (spelled? es' others).map (·.1))
    (hkey : ∀ s ∈ spellings, key ≠ .str s) :
    stray? (takenNames es fields) key = stray? (takenNames es' fields) key := by
  cases key with
  | str name =>
    have hother {fs : Entries} {others : List String} {u : Value}
        (hspelled : spelled? fs others = some (name, u)) : others ≠ spellings := by
      rintro rfl
      obtain ⟨before, after, rfl, _⟩ := spelled?_eq_some.mp hspelled
      exact hkey name (List.mem_append_right _ List.mem_cons_self) rfl
    have htaken : name ∈ takenNames es fields ↔ name ∈ takenNames es' fields := by
      rw [takenNames, takenNames, List.mem_filterMap, List.mem_filterMap]
      refine exists_congr fun others => and_congr_right fun hmem => ?_
      by_cases hsame : others = spellings
      · constructor <;> intro hname
        · obtain ⟨⟨_, u⟩, hspelled, rfl⟩ := Option.map_eq_some_iff.mp hname
          exact absurd hsame (hother hspelled)
        · obtain ⟨⟨_, u⟩, hspelled, rfl⟩ := Option.map_eq_some_iff.mp hname
          exact absurd hsame (hother hspelled)
      · rw [hothers others hmem hsame]
    simp [stray?, htaken]
  | _ => rfl

theorem stray?_taken {taken : List String} (hname : name ∈ taken) :
    stray? taken (.str name) = none := by
  rw [stray?, if_pos (List.contains_iff_mem.mpr hname)]

/-- The keys that are left over do not change with a spelling. -/
theorem leftovers_respelled {fields : List (List String)}
    (hes : Respelled h h' spellings old new es es') (hspellings : spellings ∈ fields)
    (hold : old ∈ spellings) (hnew : new ∈ spellings)
    (hothers : ∀ others ∈ fields, others ≠ spellings →
      (spelled? es others).map (·.1) = (spelled? es' others).map (·.1)) :
    leftovers es fields = leftovers es' fields := by
  obtain ⟨v, v', _, hread, hread'⟩ := hes.exists_value hold hnew
  obtain ⟨before, after, hkeys, hkeys', halone⟩ := hes.exists_keys
  have htaken : stray? (takenNames es fields) (.str old) = none :=
    stray?_taken (mem_takenNames.mpr ⟨_, hspellings, v, hread⟩)
  have htaken' : stray? (takenNames es' fields) (.str new) = none :=
    stray?_taken (mem_takenNames.mpr ⟨_, hspellings, v', hread'⟩)
  have hsame {keys : List Scalar} (hothers' : ∀ s ∈ spellings, .str s ∉ keys) :
      keys.filterMap (stray? (takenNames es fields)) =
        keys.filterMap (stray? (takenNames es' fields)) := by
    refine List.filterMap_congr fun key hkey => stray?_congr hothers fun s hs heq => ?_
    exact hothers' s hs (heq ▸ hkey)
  rw [leftovers_eq, leftovers_eq, hkeys, hkeys', List.filterMap_append, List.filterMap_append,
    List.filterMap_cons_none htaken, List.filterMap_cons_none htaken',
    hsame fun s hs => (halone s hs).1, hsame fun s hs => (halone s hs).2]

/-- A field in another spelling is read as it was. -/
theorem varies_respelled (hspellings : spellings ∈ m.spellings) (hold : old ∈ spellings)
    (hnew : new ∈ spellings) (hes : Respelled h h' spellings old new (h.entries a) (h'.entries a')) :
    ∃ own : List Problem, Varies (own.map (·.within (.name old))) (own.map (·.within (.name new)))
      (m.decoder h (.map a)) (m.decoder h' (.map a')) := by
  obtain ⟨p, hp, hreads⟩ := m.exists_reads
  obtain ⟨f, hf, rfl⟩ := List.mem_map.mp hspellings
  obtain ⟨v, v', hv, hread, hread'⟩ := hes.exists_value hold hnew
  have hothers : ∀ g ∈ m.fields, g.spellings ≠ f.spellings →
      ReadAlike h h' (spelled? (h.entries a) g.spellings) (spelled? (h'.entries a') g.spellings) := by
    intro g hg hne
    have hother := m.distinct_fields f hf g hg hne
    exact hes.readAlike (hother old hold) (hother new hnew)
  have hleft : leftovers (h.entries a) m.spellings = leftovers (h'.entries a') m.spellings := by
    refine leftovers_respelled hes hspellings hold hnew fun others hmem hne => ?_
    obtain ⟨g, hg, rfl⟩ := List.mem_map.mp hmem
    exact (hothers g hg hne).name_eq
  refine ⟨(f.decoder h v).found, ?_⟩
  rw [hp]
  refine varies_record hreads hf (fun g hg hne => ?_) hleft ?_
  · exact FieldReader.read_alike (m.faithful_fields g hg) (hothers g hg hne)
  · rw [FieldReader.read_some hread, FieldReader.read_some hread',
      m.faithful_fields f hf h h' v v' hv]
    exact varies_step _ _ _

theorem under_within (path : List Scalar) (name : String) (p : Problem) :
    (p.within (.name name)).under (locationOf path) = p.under (locationOf path ++ [.name name]) := by
  rw [Problem.under, Problem.under, Problem.within, List.append_assoc]
  rfl

/-- The spellings of a field are interchangeable: the same document is read, or the same problems are
found, in the same order, and those of the field are located under its new spelling. -/
theorem spellings_interchangeable (file : Option String) (hreads : ReadsAt h .document v path m)
    (hspellings : spellings ∈ m.spellings) (hold : old ∈ spellings) (hnew : new ∈ spellings)
    (hrespelled : Changed h h' (Respelled h h' spellings old new) path v v') :
    (∃ d, Source.parseConfig file ⟨h, v⟩ = .ok d ∧ Source.parseConfig file ⟨h', v'⟩ = .ok d) ∨
    ∃ before own after : List Problem,
      Source.parseConfig file ⟨h, v⟩ = .error (.config ⟨file, .invalid
        (before ++ own.map (·.under (locationOf path ++ [.name old])) ++ after)⟩) ∧
      Source.parseConfig file ⟨h', v'⟩ = .error (.config ⟨file, .invalid
        (before ++ own.map (·.under (locationOf path ++ [.name new])) ++ after)⟩) := by
  obtain ⟨a, a', hes, hplace⟩ := exists_place hreads hrespelled
  obtain ⟨own, hown⟩ := varies_respelled hspellings hold hnew hes
  have hvaries := hplace _ _ hown
  obtain ⟨root, root', rfl, rfl⟩ := hrespelled.exists_map
  obtain ⟨before, after, hfound, hfound'⟩ := hvaries.found
  simp only [List.map_map, Function.comp_def, under_within] at hfound hfound'
  change (document h (.map root)).found = _ at hfound
  change (document h' (.map root')).found = _ at hfound'
  by_cases hnone : before = [] ∧ own = [] ∧ after = []
  · obtain ⟨rfl, rfl, rfl⟩ := hnone
    obtain ⟨d, hd⟩ := value?_of_found hfound
    have hsame : (document h (.map root)).value? = (document h' (.map root')).value? :=
      hvaries.value rfl rfl
    exact .inl ⟨d, parseConfig_of_value hd, parseConfig_of_value (hsame.symm.trans hd)⟩
  · refine .inr ⟨before, own, after, ?_, ?_⟩
    · rw [parseConfig_of_found (by rw [hfound]; simpa [and_assoc] using hnone), hfound]
    · rw [parseConfig_of_found (by rw [hfound']; simpa [and_assoc] using hnone), hfound']

/-- The first spelling of a validator in the place of the last one, with an empty text. -/
theorem respelled_validator : ∃ before own after : List Problem,
    Source.parseConfig none ⟨bindingHeap [(.str "zodType", .str "")], .map 0⟩ =
      .error (.config ⟨none, .invalid
        (before ++ own.map (·.under (locationOf bindingPath ++ [.name "zodType"])) ++ after)⟩) ∧
    Source.parseConfig none ⟨bindingHeap [(.str "validator", .str "")], .map 0⟩ =
      .error (.config ⟨none, .invalid
        (before ++ own.map (·.under (locationOf bindingPath ++ [.name "validator"])) ++ after)⟩) := by
  have hrespelled : Respelled (bindingHeap [(.str "zodType", .str "")])
      (bindingHeap [(.str "validator", .str "")]) Spelling.validator "zodType" "validator"
      [(.str "zodType", .str "")] [(.str "validator", .str "")] :=
    ⟨[], [], [], [], _, _, rfl, rfl, .nil, alike_scalar _ _ _, .nil,
      fun _ _ => ⟨List.not_mem_nil, List.not_mem_nil⟩⟩
  have hrefused : Source.parseConfig none ⟨bindingHeap [(.str "zodType", .str "")], .map 0⟩ =
    .error (.config ⟨none, .invalid
      [⟨[.name "output"], .notMapping⟩,
        ⟨[.name "typescript", .name "customTypes", .index 1, .name "[key]"], .notText⟩,
        ⟨[.name "typescript", .name "customTypes", .index 1, .name "zodType"], .tooShort⟩]⟩) := by
    rfl
  refine (spellings_interchangeable none (readsAt_bindingHeap _) (.head _) (by decide) (by decide)
    (changed_bindingHeap hrespelled)).resolve_left ?_
  rintro ⟨d, hd, _⟩
  cases hrefused.symm.trans hd

end SchemaCompiler.Config
