import SchemaCompiler.Proofs.Lowering.Account
import SchemaCompiler.Proofs.Order

/-!
The order of a document. Mappings are looked up by key, properties are sorted by name and required
names count as a set, so putting entries and names in another order changes no declaration. Only the
members of enums stay in their order.
-/
namespace SchemaCompiler

/-- A heap with the entries of mappings and the elements of lists in another order. The members of
enums keep their order. So do entries whose keys have the same text, such as `1` and `"1"`; where all
keys are texts no two entries of a mapping are like that. -/
structure Heap.Rearranges (h h' : Heap) : Prop where
  size : h.cells.size = h'.cells.size
  entries : ∀ a, Rearranged (·.1.text?) (h.entries a) (h'.entries a)
  items : ∀ a, (h.items a).Perm (h'.items a)
  enums : ∀ node a, h.find? node "enum" = some (.list a) → h.items a = h'.items a
  members : ∀ a, h.members a = h'.members a

variable {h h' : Heap} {node : Address} {entries entries' : Entries} {key : String} {v : Value}

/-- A text key is looked up among the entries whose keys have its text. -/
theorem Entries.find?_filter (entries : Entries) (key : String) :
    Entries.find? (entries.filter (·.1.text? == some key)) key = entries.find? key := by
  induction entries with
  | nil => rfl
  | cons e rest ih =>
    obtain ⟨k, v⟩ := e
    rw [List.filter_cons, find?_cons]
    by_cases hk : k = .str key
    · have htext : (k.text? == some key) = true := by rw [hk, Scalar.text?, beq_self_eq_true]
      rw [if_pos htext, if_pos hk, find?_cons, if_pos hk]
    · rw [if_neg hk]
      split
      · rw [find?_cons, if_neg hk, ih]
      · exact ih

theorem Entries.find?_of_rearranged (he : Rearranged (·.1.text?) entries entries') :
    entries.find? key = entries'.find? key := by
  rw [← find?_filter entries, ← find?_filter entries', he]

theorem isNone_mapM {α β : Type} {f g : α → Option β} {xs ys : List α} (hmem : ∀ x, x ∈ xs ↔ x ∈ ys)
    (hfg : ∀ x, (f x).isNone = (g x).isNone) : (xs.mapM f).isNone = (ys.mapM g).isNone := by
  have hiff (f : α → Option β) (xs : List α) :
      (xs.mapM f).isNone = true ↔ ∃ x ∈ xs, (f x).isNone = true := by
    induction xs with
    | nil => simp
    | cons x rest ih =>
      rw [List.mapM_cons]
      cases hx : f x with
      | none => simp [hx]
      | some y =>
        cases hrest : rest.mapM f with
        | none => simpa [hx, hrest] using ih
        | some ys => simpa [hx, hrest] using ih
  rw [Bool.eq_iff_iff, hiff, hiff]
  simp only [hmem, hfg]

theorem isNone_both {o p : Option String} (f : String → String → String) :
    (do return f (← o) (← p) : Option String).isNone = (o.isNone || p.isNone) := by
  cases o with
  | none => rfl
  | some s => cases p <;> rfl

namespace Heap.Rearranges

variable (hr : h.Rearranges h')
include hr

theorem find?_eq (node : Address) (key : String) : h.find? node key = h'.find? node key :=
  Entries.find?_of_rearranged (hr.entries node)

/-- Whether a value has a notation does not depend on the order of what is in it. -/
theorem isNone_showIn? (room : Nat) (outer : List Address) (v : Value) :
    (h.showIn? room outer v).isNone = (h'.showIn? room outer v).isNone := by
  induction room generalizing outer v with
  | zero => cases v <;> rfl
  | succ room ih =>
    cases v with
    | scalar s => rfl
    | list a =>
      rw [showIn?, showIn?]
      split
      · rfl
      · simp only [Option.map_eq_map, Option.isNone_map]
        exact isNone_mapM (fun x => (hr.items a).mem_iff) fun x => ih _ x
    | map a =>
      rw [showIn?, showIn?]
      split
      · rfl
      · simp only [Option.map_eq_map, Option.isNone_map]
        refine isNone_mapM (fun x => (hr.entries a).mem_iff) fun x => ?_
        rw [isNone_both, isNone_both, ih]
    | set a => rw [showIn?, showIn?, hr.members]
    | pair a =>
      rw [showIn?, showIn?]
      split
      · rfl
      · simp only [Option.map_eq_map, Option.isNone_map]
        exact isNone_mapM (fun x => (hr.items a).mem_iff) fun x => ih _ x

theorem isNone_shown? (v : Value) : (h.shown? v).isNone = (h'.shown? v).isNone := by
  rw [shown?, shown?, hr.size, hr.isNone_showIn?]

end Heap.Rearranges

namespace Lowering

open Heap.Rearranges

variable {limit : Int} {s : Stand} {shape shape' : Stand → Shape}

section

variable (hr : h.Rearranges h')
include hr

theorem wayOf_rearranged (node : Address) : wayOf h node = wayOf h' node := by
  simp only [wayOf, typeOf, hr.find?_eq]
  rfl

theorem propertyEntries_rearranged (node : Address) :
    Rearranged (·.1.text?) (propertyEntries h node) (propertyEntries h' node) := by
  rw [propertyEntries, propertyEntries, hr.find?_eq]
  split
  · exact hr.entries _
  · exact fun _ => rfl

/-- Sorting the properties by name undoes their rearrangement. -/
theorem namedProperties_rearranged (node : Address) :
    namedProperties h node = namedProperties h' node := by
  refine Rearranged.mergeSort_eq ((propertyEntries_rearranged hr node).filterMap ?_)
  rintro ⟨k, v⟩ p hp
  obtain ⟨name, hname, rfl⟩ := Option.map_eq_some_iff.mp hp
  exact hname

theorem anyUnnamed_rearranged (node : Address) :
    anyUnnamed (propertyKeys h node) = anyUnnamed (propertyKeys h' node) := by
  rw [anyUnnamed, anyUnnamed, propertyKeys, propertyKeys, Bool.eq_iff_iff, List.any_map,
    List.any_map, List.any_eq_true, List.any_eq_true]
  simp only [(propertyEntries_rearranged hr node).mem_iff]

theorem listed_rearranged (node : Address) (key : String) :
    (listed h node key).Perm (listed h' node key) := by
  rw [listed, listed, hr.find?_eq]
  split
  · exact hr.items _
  · exact .nil

theorem members_rearranged (node : Address) : listed h node "enum" = listed h' node "enum" := by
  rw [listed, listed, ← hr.find?_eq]
  split
  · next a ha => exact hr.enums node a ha
  · rfl

theorem anyUnwritable_rearranged {vs vs' : List Value} (hvs : vs.Perm vs') :
    anyUnwritable h vs = anyUnwritable h' vs' := by
  rw [anyUnwritable, anyUnwritable, Bool.eq_iff_iff, List.any_eq_true, List.any_eq_true]
  simp only [hvs.mem_iff, hr.isNone_shown?]

namespace Stand

theorem type_rearranged (s : Stand) : s.type h = s.type h' := by
  rw [type, type, typeOf, typeOf, hr.find?_eq]

theorem way_rearranged (s : Stand) : s.way h = s.way h' := by
  rw [way, way, hr.find?_eq, wayOf_rearranged hr]

theorem properties_rearranged (s : Stand) : s.properties h = s.properties h' := by
  rw [properties, properties, namedProperties_rearranged hr]

theorem items?_rearranged (s : Stand) : s.items? h = s.items? h' := by
  rw [items?, items?, hr.find?_eq]

theorem children_rearranged (s : Stand) : s.children h = s.children h' := by
  rw [children, children, way_rearranged hr, properties_rearranged hr, items?_rearranged hr]

theorem isUntyped_rearranged (s : Stand) : s.isUntyped h = s.isUntyped h' := by
  rw [isUntyped, isUntyped, type_rearranged hr, hr.find?_eq]

/-- The values that a visit can show are the same up to their order. -/
theorem shown_rearranged (s : Stand) : (s.shown h).Perm (s.shown h') := by
  rw [shown, shown, way_rearranged hr, isUntyped_rearranged hr, type_rearranged hr]
  split
  · exact listed_rearranged hr _ _
  · exact .refl _
  · exact (listed_rearranged hr _ _).append_left _
  · exact .refl _
  · exact .refl _

theorem isUnwritable_rearranged (s : Stand) : s.isUnwritable h = s.isUnwritable h' := by
  have hkeys : anyUnnamed (s.keys h) = anyUnnamed (s.keys h') := by
    rw [keys, keys, way_rearranged hr]
    split
    · exact anyUnnamed_rearranged hr _
    · rfl
  rw [isUnwritable, isUnwritable, anyUnwritable_rearranged hr (shown_rearranged hr s), hkeys]

theorem fault?_rearranged (s : Stand) : s.fault? h = s.fault? h' := by
  rw [fault?, fault?, unhashable?, unhashable?, way_rearranged hr, isUnwritable_rearranged hr]

/-- A node has the same shape when the nodes below it have. -/
theorem shapeBy_rearranged (hshape : ∀ c ∈ s.children h, shape c = shape' c) :
    s.shapeBy h shape = s.shapeBy h' shape' := by
  have hdescription (node : Address) : description h node = description h' node := by
    rw [description, description, hr.find?_eq]
  have hnullable (node : Address) : isNullable h node = isNullable h' node := by
    rw [isNullable, isNullable, hr.find?_eq]
  have hrequired : (texts h s.node "required").Perm (texts h' s.node "required") :=
    (listed_rearranged hr s.node "required").filterMap _
  rw [shapeBy, shapeBy, ← way_rearranged hr]
  rw [children] at hshape
  cases hway : s.way h with
  | enum =>
    have hmembers : texts h s.node "enum" = texts h' s.node "enum" := by
      rw [texts, texts, members_rearranged hr]
    simp only [enumShape, hmembers, hdescription, type_rearranged hr]
  | reference target => rfl
  | object =>
    rw [hway] at hshape
    have hfields : s.fields h shape = s.fields h' shape' := by
      rw [fields, fields, ← properties_rearranged hr]
      refine List.map_congr_left fun c hc => ?_
      have hcontains : (texts h s.node "required").contains c.site.name =
          (texts h' s.node "required").contains c.site.name := by
        rw [Bool.eq_iff_iff, List.contains_iff_mem, List.contains_iff_mem, hrequired.mem_iff]
      rw [hshape c hc, hdescription, hnullable, hcontains]
    have hnames : sortNames (texts h s.node "required") = sortNames (texts h' s.node "required") :=
      sortNames_congr fun name => hrequired.mem_iff
    simp only [hfields, hdescription, Declaration.object, Declaration.ordered, hnames]
  | array =>
    rw [hway] at hshape
    rw [← items?_rearranged hr]
    cases hi : s.items? h with
    | none => rfl
    | some c =>
      have hc : shape c = shape' c := hshape c (by simp [hi])
      simp only [Option.map_some, hc]
  | plain type => simp only [plainShape, hr.find?_eq]

/-- A visit goes through in both orders or fails alike. -/
theorem error?_rearranged (s : Stand) :
    (s.visit h limit).error? = (s.visit h' limit).error? := by
  induction s using visit_induction h limit with
  | step s ih =>
    rw [error?_visit, error?_visit, stop?, stop?, fault?_rearranged hr, children_rearranged hr]
    cases hg : s.guard? limit with
    | some e => rfl
    | none =>
      congr 1
      refine First.findSome?_congr fun c hc => ih hg c ?_
      rwa [children_rearranged hr]

/-- A visit that goes through gives the same shape in both orders. -/
theorem lowered_rearranged (hs : (s.visit h limit).error? = none) :
    s.lowered h limit = s.lowered h' limit := by
  induction s using visit_induction h limit with
  | step s ih =>
    obtain ⟨hstop, hbelow⟩ := error?_visit_eq_none.mp hs
    rw [lowered_eq hs, lowered_eq ((error?_rearranged hr s).symm.trans hs)]
    exact shapeBy_rearranged hr fun c hc => ih (stop?_eq_none.mp hstop).1 c hc (hbelow c hc)

end Stand

/-- An entry fails alike in both orders, and what it is kept as is the same. -/
theorem entry_rearranged (e : Scalar × Value) :
    (entry h limit e).error? = (entry h' limit e).error? ∧
      ((entry h limit e).error? = none → (entry h limit e).kept = (entry h' limit e).kept) := by
  cases hs : schemaStand? e with
  | some s =>
    have herror : (s.visit h limit).error? = (s.visit h' limit).error? :=
      Stand.error?_rearranged hr s
    rw [error?_entry_of_schema hs, error?_entry_of_schema hs]
    refine ⟨herror, fun hnone => ?_⟩
    obtain ⟨d, ho, hentry⟩ := entry_of_schema hs hnone
    obtain ⟨d', ho', hentry'⟩ := entry_of_schema hs (herror.symm.trans hnone)
    have hlowered := Stand.lowered_rearranged hr hnone
    rw [Stand.lowered, Stand.lowered, ho, ho'] at hlowered
    cases hlowered
    rw [hentry, hentry']
    rfl
  | none =>
    have hsame : entry h limit e = entry h' limit e := by
      obtain ⟨k, v⟩ := e
      cases hk : k.text? with
      | none =>
        rw [entry, entry, hk]
        rfl
      | some name =>
        rw [entry, entry, hk]
        cases v with
        | map a => simp [schemaStand?, hk, Value.mapping?] at hs
        | _ => rfl
    rw [hsame]
    exact ⟨rfl, fun _ => rfl⟩

end

/-- The declaration of a schema has the text of the key as its name. -/
theorem name_of_entry {e : Scalar × Value} {d : Declaration} (hd : (entry h limit e).kept = some d) :
    e.1.text? = some d.name := by
  have hnone : (entry h limit e).error? = none := by
    rw [Traced.kept] at hd
    split at hd
    · next b ho => exact Traced.error?_eq_none.mpr ⟨b, ho⟩
    · cases hd
  cases hs : schemaStand? e with
  | some s =>
    obtain ⟨d', ho, hentry⟩ := entry_of_schema hs ((error?_entry_of_schema hs).symm.trans hnone)
    rw [hentry] at hd
    cases hd
    obtain ⟨name, node, hname, _, rfl⟩ := schemaStand?_eq_some.mp hs
    rw [hname, name_of_visit ho]
  | none =>
    obtain ⟨k, v⟩ := e
    cases hk : k.text? with
    | none =>
      rw [entry, hk] at hnone
      cases hnone
    | some name =>
      rw [entry_of_other hs (by simp [hk])] at hd
      cases hd

/-- In every order of a document lowering goes through or in none, and it gives the same declarations
up to their order. -/
theorem schemas_rearranged (hr : h.Rearranges h') (he : Rearranged (·.1.text?) entries entries')
    (limit : Int) :
    ((∃ ds, (schemas h limit entries).outcome = .ok ds) ↔
      ∃ ds', (schemas h' limit entries').outcome = .ok ds') ∧
    ∀ ds ds', (schemas h limit entries).outcome = .ok ds →
      (schemas h' limit entries').outcome = .ok ds' → Rearranged (·.name) ds ds' := by
  constructor
  · rw [← Traced.error?_eq_none, ← Traced.error?_eq_none, schemas, schemas, Traced.error?_collect,
      Traced.error?_collect, List.findSome?_eq_none_iff, List.findSome?_eq_none_iff]
    simp only [he.mem_iff, (entry_rearranged hr _).1]
  · intro ds ds' hok hok'
    obtain ⟨hnone, hds, _⟩ := Traced.collect_eq_ok.mp (Traced.eq_ok_of_outcome hok)
    obtain ⟨_, hds', _⟩ := Traced.collect_eq_ok.mp (Traced.eq_ok_of_outcome hok')
    have hkept : entries'.filterMap (fun e => (entry h' limit e).kept) =
        entries'.filterMap fun e => (entry h limit e).kept :=
      List.filterMap_congr fun e hmem =>
        ((entry_rearranged hr e).2 (hnone e (he.mem_iff.mpr hmem))).symm
    rw [hds, hds', hkept]
    exact he.filterMap fun e d => name_of_entry

end Lowering
end SchemaCompiler
