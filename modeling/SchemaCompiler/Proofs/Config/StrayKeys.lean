import SchemaCompiler.Proofs.Config.Models

/-!
Keys that no model knows. Such a key in a model adds one problem to those of the document and leaves all
others as they are and in their order.
-/
namespace SchemaCompiler.Config

open Decoded

variable {h h' : Heap} {v v' : Value} {path : List Scalar} {m : Model} {key : String}
  {a a' : Address}

/-- The lines that say what is wrong with a configuration; none for one that can be used. -/
def detailsOf : Except Failure Document → List String
  | .error (.config e) => e.details
  | _ => []

theorem detailsOf_parseConfig (file : Option String) (h : Heap) (a : Address) :
    detailsOf (Source.parseConfig file ⟨h, .map a⟩) =
      (document h (.map a)).found.map Problem.text := by
  cases hdocument : document h (.map a) with
  | value d => rw [parseConfig_of_value (by rw [hdocument]; rfl)]; rfl
  | problems p ps => rw [parseConfig_of_found (by simp [hdocument, found]), hdocument]; rfl

/-- Entries with one entry more, under a text key. -/
def Inserted (h h' : Heap) (key : String) (es es' : Entries) : Prop :=
  ∃ (before after before' after' : Entries) (w : Value), es = before ++ after ∧
    es' = before' ++ (.str key, w) :: after' ∧ Entries.Alike h h' before before' ∧
    Entries.Alike h h' after after'

namespace Inserted

variable {es es' : Entries}

/-- A field that has no such spelling is read as it was. -/
theorem readAlike (hes : Inserted h h' key es es') {spellings : List String}
    (hkey : key ∉ spellings) : ReadAlike h h' (spelled? es spellings) (spelled? es' spellings) := by
  obtain ⟨before, after, before', after', w, rfl, rfl, hbefore, hafter⟩ := hes
  rw [spelled?_insert hkey]
  exact readAlike_spelled? (hbefore.append hafter) _

theorem exists_keys (hes : Inserted h h' key es es') : ∃ before after,
    es.keys = before ++ after ∧ es'.keys = before ++ .str key :: after := by
  obtain ⟨before, after, before', after', w, rfl, rfl, hbefore, hafter⟩ := hes
  refine ⟨before.keys, after.keys, Entries.keys_append _ _, ?_⟩
  rw [hbefore.keys_eq, hafter.keys_eq, Entries.keys_append, Entries.keys_cons]

end Inserted

theorem not_mem_takenNames {es : Entries} {fields : List (List String)}
    (hkey : ∀ spellings ∈ fields, key ∉ spellings) : key ∉ takenNames es fields := by
  rw [mem_takenNames]
  rintro ⟨spellings, hspellings, v, hv⟩
  obtain ⟨before, after, rfl, _⟩ := spelled?_eq_some.mp hv
  exact hkey _ hspellings (List.mem_append_right _ List.mem_cons_self)

/-- A key that is left over is one more problem, in its place among those of the other keys. -/
theorem leftovers_inserted {es es' : Entries} {fields : List (List String)}
    (hes : Inserted h h' key es es') (hkey : ∀ spellings ∈ fields, key ∉ spellings) :
    ∃ ps qs, leftovers es fields = ps ++ qs ∧
      leftovers es' fields = ps ++ ⟨[.name key], .notAllowed⟩ :: qs := by
  obtain ⟨before, after, hkeys, hkeys'⟩ := hes.exists_keys
  have hsame : takenNames es fields = takenNames es' fields :=
    List.filterMap_congr fun spellings hmem => (hes.readAlike (hkey spellings hmem)).name_eq
  have hstray : stray? (takenNames es' fields) (.str key) = some ⟨[.name key], .notAllowed⟩ := by
    rw [stray?, if_neg (by simpa using not_mem_takenNames hkey)]
  refine ⟨before.filterMap (stray? (takenNames es' fields)),
    after.filterMap (stray? (takenNames es' fields)), ?_, ?_⟩
  · rw [leftovers_eq, hsame, hkeys, List.filterMap_append]
  · rw [leftovers_eq, hkeys', List.filterMap_append, List.filterMap_cons_some hstray]

/-- A key that is no spelling of a field is left over, and nothing else changes. -/
theorem varies_inserted (hkey : ∀ spellings ∈ m.spellings, key ∉ spellings)
    (hes : Inserted h h' key (h.entries a) (h'.entries a')) :
    Varies [] [⟨[.name key], .notAllowed⟩] (m.decoder h (.map a)) (m.decoder h' (.map a')) := by
  obtain ⟨p, hp, hreads⟩ := m.exists_reads
  have hsame : p h (h.entries a) = p h' (h'.entries a') := by
    refine hreads.congr fun f hf => FieldReader.read_alike (m.faithful_fields f hf) ?_
    exact hes.readAlike (hkey f.spellings (List.mem_map_of_mem hf))
  obtain ⟨ps, qs, hleft, hleft'⟩ := leftovers_inserted hes hkey
  rw [hp, record_map, record_map, hsame]
  refine ⟨⟨(p h' (h'.entries a')).found ++ ps, qs, ?_, ?_⟩,
    fun _ hnil => absurd hnil (List.cons_ne_nil _ _)⟩
  · rw [found_spoil, hleft, List.append_nil, List.append_assoc]
  · rw [found_spoil, hleft', List.append_assoc, List.append_assoc, List.singleton_append]

/-- What is said of a key that is not known: its location and the message. The empty key of the whole
document has an empty location, which is not shown. -/
def strayLine (path : List Scalar) (key : String) : String :=
  let message := "This field is not allowed in this context"
  match path with
  | [] => if key = "" then message else s!"{key}: {message}"
  | path => s!"{locationText (locationOf path)}.{key}: {message}"

theorem text_stray (path : List Scalar) (key : String) :
    ((⟨[.name key], .notAllowed⟩ : Problem).under (locationOf path)).text = strayLine path key := by
  cases path with
  | nil =>
    have hlocation : locationText [.name key] = key := by simp [locationText, locationText.head]
    rw [Problem.text, Problem.under, locationOf, List.map_nil, List.nil_append, hlocation]
    simp [strayLine, Cause.message]
  | cons first rest =>
    have hsteps : locationOf (first :: rest) ≠ [] := List.cons_ne_nil _ _
    rw [Problem.text, Problem.under, locationText_name hsteps]
    simp [strayLine, Cause.message, toString]

/-- A key that a model does not know is reported once, with its location, wherever the model is read.
Nothing else that is said of the document changes, nor does its order. -/
theorem stray_key_reported (file : Option String) (hreads : ReadsAt h .document v path m)
    (hkey : ∀ spellings ∈ m.spellings, key ∉ spellings)
    (hinserted : Changed h h' (Inserted h h' key) path v v') : ∃ before after e,
      detailsOf (Source.parseConfig file ⟨h, v⟩) = before ++ after ∧
      Source.parseConfig file ⟨h', v'⟩ = .error (.config e) ∧ e.path = file ∧
      e.details = before ++ strayLine path key :: after := by
  obtain ⟨a, a', hes, hplace⟩ := exists_place hreads hinserted
  have hvaries := hplace _ _ (varies_inserted hkey hes)
  obtain ⟨root, root', rfl, rfl⟩ := hinserted.exists_map
  obtain ⟨before, after, hfound, hfound'⟩ := hvaries.found
  have hproblems : (document h' (.map root')).found ≠ [] := by
    intro hnone
    have hline := hfound'.symm.trans hnone
    simp at hline
  refine ⟨before.map Problem.text, after.map Problem.text,
    ⟨file, .invalid (document h' (.map root')).found⟩, ?_, parseConfig_of_found hproblems, rfl, ?_⟩
  · rw [detailsOf_parseConfig]
    change (document h (.map root)).found = _ at hfound
    rw [hfound]
    simp
  · change (document h' (.map root')).found = _ at hfound'
    rw [hfound', ConfigError.details]
    simp [text_stray]

/-- A key in a binding, in a document that has two problems already. -/
theorem stray_colour_reported : ∃ before after e,
    detailsOf (Source.parseConfig none ⟨bindingHeap [(.str "zodType", .str "")], .map 0⟩) =
      before ++ after ∧
    Source.parseConfig none
      ⟨bindingHeap [(.str "colour", .str "red"), (.str "zodType", .str "")], .map 0⟩ =
        .error (.config e) ∧ e.path = none ∧
    e.details = before ++
      "typescript.customTypes[1].colour: This field is not allowed in this context" :: after := by
  have hline : strayLine bindingPath "colour" =
    "typescript.customTypes[1].colour: This field is not allowed in this context" := by decide
  have hzod : Entries.Alike (bindingHeap [(.str "zodType", .str "")])
      (bindingHeap [(.str "colour", .str "red"), (.str "zodType", .str "")])
      [(.str "zodType", .str "")] [(.str "zodType", .str "")] :=
    .cons ⟨rfl, alike_scalar _ _ _⟩ .nil
  rw [← hline]
  exact stray_key_reported none (readsAt_bindingHeap _) (by decide)
    (changed_bindingHeap ⟨[], _, [], _, _, rfl, rfl, .nil, hzod⟩)

/-- The empty key of the whole document is reported without a location. -/
theorem unnamed_key_unlocated :
    detailsOf (Source.parseConfig none ⟨⟨#[.entries []]⟩, .map 0⟩) = [] ∧
    detailsOf (Source.parseConfig none ⟨⟨#[.entries [(.str "", .scalar (.int 1))]]⟩, .map 0⟩) =
      ["This field is not allowed in this context"] ∧
    detailsOf (Source.parseConfig none ⟨⟨#[.entries [(.str "", .scalar (.int 1))]]⟩, .map 0⟩) ≠
      [": This field is not allowed in this context"] := by
  decide

end SchemaCompiler.Config
