import SchemaCompiler.Proofs.Lowering.Visit

/-!
The parts of a visit. Each one fails when a number that it has to write out is too long, and has a
value and notes that the raw node alone decides when it does not.
-/
namespace SchemaCompiler.Lowering

open Traced (tooLongIf)

variable {h : Heap} {node : Address} {site : Site} {path : String}

/-- The notation of a value; empty when it has none. -/
def notationOf (h : Heap) (v : Value) : String := (h.shown? v).getD ""

/-- The diagnostics about the values of a list that are no texts, each at its index. -/
def textNotes (h : Heap) (finding : String → Finding) (path : String) (values : List Value) :
    List Diagnostic :=
  values.zipIdx.flatMap fun (v, i) =>
    if v.text?.isSome then [] else [(finding (notationOf h v)).atPath s!"{path}[{i}]"]

/-- Keeping the elements of a list with their indices is keeping the elements. -/
theorem filterMap_zipIdx {α β : Type} (f : α → Option β) (xs : List α) :
    xs.zipIdx.filterMap (fun x => f x.1) = xs.filterMap f := by
  have hm := List.filterMap_map (l := xs.zipIdx) (f := Prod.fst) (g := f)
  rw [List.zipIdx_map_fst] at hm
  exact hm.symm

theorem textEntry_of_text (finding : String → Finding) {v : Value} {s : String} (i : Nat)
    (hv : v.text? = some s) : textEntries.entry h finding path (v, i) = return some s := by
  cases v with
  | scalar c => cases c <;> simp_all [Value.text?, textEntries.entry]
  | _ => cases hv

theorem textEntry_of_other (finding : String → Finding) {v : Value} (i : Nat)
    (hv : v.text? = none) : textEntries.entry h finding path (v, i) = do
      Traced.note (finding (← Traced.ofText (h.shown? v))) s!"{path}[{i}]"
      return none := by
  cases v with
  | scalar c => cases c <;> first | rfl | cases hv
  | _ => rfl

theorem shown?_of_text {v : Value} {s : String} (hv : v.text? = some s) :
    h.shown? v = some (Text.quoted s) := by
  cases v with
  | scalar c => cases c <;> simp_all [Value.text?, Heap.shown?, Heap.showIn?, Scalar.shown?]
  | _ => cases hv

theorem error?_textEntry (finding : String → Finding) (v : Value) (i : Nat) :
    (textEntries.entry h finding path (v, i)).error? = tooLongIf (h.shown? v).isNone := by
  cases hv : v.text? with
  | some s => rw [textEntry_of_text finding i hv, shown?_of_text hv]; rfl
  | none =>
    rw [textEntry_of_other finding i hv, Traced.error?_bind_of_forall (e := none) fun s => rfl,
      Traced.error?_ofText, Option.or_none]

theorem error?_textEntries (finding : String → Finding) (a : Address) :
    (textEntries h finding path a).error? = tooLongIf (anyUnwritable h (h.items a)) := by
  have hi : anyUnwritable h (h.items a) =
      (h.items a).zipIdx.any fun x => (h.shown? x.1).isNone := by
    have hm := List.any_map (l := (h.items a).zipIdx) (f := Prod.fst)
      (p := fun v => (h.shown? v).isNone)
    rwa [List.zipIdx_map_fst] at hm
  rw [textEntries, Traced.error?_collect, hi, ← Traced.findSome?_tooLongIf]
  congr
  funext ⟨v, i⟩
  exact error?_textEntry finding v i

theorem textEntry_eq (finding : String → Finding) {v : Value} {i : Nat}
    (hw : (h.shown? v).isNone = false) :
    textEntries.entry h finding path (v, i) = ⟨.ok v.text?,
      if v.text?.isSome then [] else [(finding (notationOf h v)).atPath s!"{path}[{i}]"]⟩ := by
  cases hv : v.text? with
  | some s => rw [textEntry_of_text finding i hv]; rfl
  | none =>
    obtain ⟨t, ht⟩ := Option.isSome_iff_exists.mp (by simpa using hw)
    rw [textEntry_of_other finding i hv, notationOf, ht]
    rfl

/-- The texts of a list of values that all have a notation. -/
theorem textEntries_eq (finding : String → Finding) {a : Address}
    (hw : anyUnwritable h (h.items a) = false) :
    textEntries h finding path a =
      ⟨.ok ((h.items a).filterMap Value.text?), textNotes h finding path (h.items a)⟩ := by
  have he : ∀ x ∈ (h.items a).zipIdx, textEntries.entry h finding path x = ⟨.ok x.1.text?,
      if x.1.text?.isSome then []
      else [(finding (notationOf h x.1)).atPath s!"{path}[{x.2}]"]⟩ := by
    rintro ⟨v, i⟩ hx
    apply textEntry_eq
    have hv : v ∈ h.items a := by
      rw [← List.zipIdx_map_fst 0 (h.items a)]
      exact List.mem_map_of_mem hx
    simpa only [Bool.not_eq_true] using List.any_eq_false.mp hw v hv
  rw [textEntries, Traced.collect_of_forall _ _ he, filterMap_zipIdx]
  rfl

/-- The texts in the list under a key. -/
def texts (h : Heap) (node : Address) (key : String) : List String :=
  (listed h node key).filterMap Value.text?

/-- What an enum node leaves about its members. -/
def memberNotes (h : Heap) (node : Address) (path : String) : List Diagnostic :=
  match (h.find? node "enum").getD .null with
  | .list a => textNotes h .memberNotText s!"{path}.enum" (h.items a)
  | v => [(Finding.enumNotList v.kindName).atPath s!"{path}.enum"]

/-- What an object node leaves about the names that it requires. -/
def requiredNotes (h : Heap) (node : Address) (path : String) : List Diagnostic :=
  match (h.find? node "required").getD .null with
  | .scalar .null => []
  | .list a => textNotes h .requiredNotName s!"{path}.required" (h.items a)
  | v => [(Finding.requiredNotList v.kindName).atPath s!"{path}.required"]

/-- What an object node leaves about its properties as a whole. -/
def propertiesNotes (h : Heap) (node : Address) (site : Site) : List Diagnostic :=
  match (h.find? node "properties").getD .null with
  | .scalar .null | .map _ => []
  | v => [(Finding.propertiesNotMapping site.name v.kindName).atPath s!"{site.path}.properties"]

theorem listed_of_list {key : String} {a : Address} (hk : h.find? node key = some (.list a)) :
    listed h node key = h.items a := by
  rw [listed, hk]

theorem error?_members :
    (members h node path).error? = tooLongIf (anyUnwritable h (listed h node "enum")) := by
  cases hv : h.find? node "enum" with
  | none => simp [members, listed, hv]; rfl
  | some v =>
    cases v with
    | list a => simp [members, listed, hv, error?_textEntries]
    | _ => simp [members, listed, hv]; rfl

theorem members_eq (hw : anyUnwritable h (listed h node "enum") = false) :
    members h node path = ⟨.ok (texts h node "enum"), memberNotes h node path⟩ := by
  cases hv : h.find? node "enum" with
  | none => simp [members, memberNotes, texts, listed, hv]; rfl
  | some v =>
    cases v with
    | list a =>
      rw [listed_of_list hv] at hw
      simp [members, memberNotes, texts, listed_of_list hv, hv, textEntries_eq _ hw]
    | _ => simp [members, memberNotes, texts, listed, hv]; rfl

theorem error?_required :
    (required h node path).error? = tooLongIf (anyUnwritable h (listed h node "required")) := by
  cases hv : h.find? node "required" with
  | none => simp [required, listed, hv]; rfl
  | some v =>
    cases v with
    | list a => simp [required, listed, hv, error?_textEntries]
    | scalar c => cases c <;> simp [required, listed, hv] <;> rfl
    | _ => simp [required, listed, hv]; rfl

theorem required_eq (hw : anyUnwritable h (listed h node "required") = false) :
    required h node path = ⟨.ok (texts h node "required"), requiredNotes h node path⟩ := by
  cases hv : h.find? node "required" with
  | none => simp [required, requiredNotes, texts, listed, hv]; rfl
  | some v =>
    cases v with
    | list a =>
      rw [listed_of_list hv] at hw
      simp [required, requiredNotes, texts, listed_of_list hv, hv, textEntries_eq _ hw]
    | scalar c => cases c <;> simp [required, requiredNotes, texts, listed, hv] <;> rfl
    | _ => simp [required, requiredNotes, texts, listed, hv]; rfl

theorem mem_namedProperties {name : String} {v : Value} :
    (name, v) ∈ namedProperties h node ↔
      ∃ k, (k, v) ∈ propertyEntries h node ∧ k.text? = some name := by
  rw [namedProperties, List.mem_mergeSort, List.mem_filterMap]
  constructor
  · rintro ⟨⟨k, w⟩, hk, he⟩
    obtain ⟨t, ht, he⟩ := Option.map_eq_some_iff.mp he
    cases he
    exact ⟨k, hk, ht⟩
  · rintro ⟨k, hk, ht⟩
    exact ⟨(k, v), hk, by simp [ht]⟩

theorem text?_isSome_of_named (hk : anyUnnamed (propertyKeys h node) = false) {e : Scalar × Value}
    (he : e ∈ propertyEntries h node) : e.1.text?.isSome := by
  have hn := List.any_eq_false.mp hk e.1 (List.mem_map_of_mem he)
  simpa [Option.isSome_iff_ne_none] using hn

theorem length_namedProperties (hk : anyUnnamed (propertyKeys h node) = false) :
    (namedProperties h node).length = (propertyEntries h node).length := by
  rw [namedProperties, List.length_mergeSort, List.filterMap_length_eq_length]
  intro e he
  simpa using text?_isSome_of_named hk he

/-- The keyed value of a property; it fails for a key without a text. -/
theorem error?_properties :
    (properties h node site).error? = tooLongIf (anyUnnamed (propertyKeys h node)) := by
  cases hv : h.find? node "properties" with
  | none => simp [properties, propertyKeys, propertyEntries, hv]; rfl
  | some v =>
    cases v with
    | map a =>
      simp only [properties, propertyKeys, propertyEntries, hv, Option.getD_some]
      rw [Traced.error?_bind_of_forall (e := none) fun named => rfl, Traced.error?_collect,
        Option.or_none, anyUnnamed, List.any_map, ← Traced.findSome?_tooLongIf]
      congr
      funext ⟨k, v⟩
      rw [Traced.error?_bind_of_forall (e := none) fun name => rfl, Traced.error?_ofText,
        Option.or_none]
      rfl
    | scalar c => cases c <;> simp [properties, propertyKeys, propertyEntries, hv] <;> rfl
    | _ => simp [properties, propertyKeys, propertyEntries, hv]; rfl

theorem properties_eq (hk : anyUnnamed (propertyKeys h node) = false) :
    properties h node site =
      ⟨.ok (namedProperties h node), propertiesNotes h node site⟩ := by
  cases hv : h.find? node "properties" with
  | none => simp [properties, propertiesNotes, namedProperties, propertyEntries, hv]; rfl
  | some v =>
    cases v with
    | map a =>
      have he : ∀ e ∈ h.entries a, (do return some (← Traced.ofText e.1.text?, e.2)) =
          (⟨.ok (e.1.text?.map (·, e.2)), []⟩ : Traced (Option (String × Value))) := by
        intro e hm
        have hmem : e ∈ propertyEntries h node := by
          rw [propertyEntries, hv]
          exact hm
        obtain ⟨name, ht⟩ := Option.isSome_iff_exists.mp (text?_isSome_of_named hk hmem)
        rw [ht]
        rfl
      simp only [properties, propertiesNotes, namedProperties, propertyEntries, hv,
        Option.getD_some]
      rw [Traced.collect_of_forall _ _ he]
      simp [Traced.bind_def, Traced.bind, Traced.pure_def]
    | scalar c =>
      cases c <;> simp [properties, propertiesNotes, namedProperties, propertyEntries, hv] <;> rfl
    | _ => simp [properties, propertiesNotes, namedProperties, propertyEntries, hv]; rfl

variable {visit : Address → Site → Traced Shape} {names : List String}

/-- Only a property that is a mapping can fail, and only in the visit of the mapping. -/
theorem error?_field (s : Stand) (name : String) (v : Value) :
    (field h visit s.site names (name, v)).error? =
      (s.property? name v).bind fun c => (visit c.node c.site).error? := by
  cases v with
  | map a =>
    rw [field, Traced.error?_bind_of_forall (e := none) fun shape => rfl, Option.or_none]
    rfl
  | _ => rfl

theorem error?_fields (s : Stand) :
    (Traced.collect (field h visit s.site names) (namedProperties h s.node)).error? =
      (s.properties h).findSome? fun c => (visit c.node c.site).error? := by
  rw [Traced.error?_collect, Stand.properties]
  induction namedProperties h s.node with
  | nil => rfl
  | cons p rest ih =>
    rw [List.findSome?_cons, ih, error?_field, List.filterMap_cons]
    cases s.property? p.1 p.2 <;> rfl

/-- The declaration of an object node is that of its fields, after the notes about the node. -/
theorem objectDeclaration_eq (hr : anyUnwritable h (listed h node "required") = false)
    (hk : anyUnnamed (propertyKeys h node) = false) :
    objectDeclaration h visit node site = (do
      Traced.notes (requiredNotes h node site.path ++ propertiesNotes h node site)
      let fields ← Traced.collect (field h visit site (texts h node "required"))
        (namedProperties h node)
      return .object site.name (description h node) fields (texts h node "required")) := by
  rw [objectDeclaration, required_eq hr, properties_eq hk]
  simp [Traced.bind_def, Traced.bind, Traced.notes]

theorem error?_objectDeclaration (s : Stand) :
    (objectDeclaration h visit s.node s.site).error? =
      (tooLongIf (anyUnwritable h (listed h s.node "required") ||
        anyUnnamed (propertyKeys h s.node))).or
      ((s.properties h).findSome? fun c => (visit c.node c.site).error?) := by
  cases hr : anyUnwritable h (listed h s.node "required") with
  | true => rw [objectDeclaration, Traced.error?_bind, error?_required, hr]; rfl
  | false =>
    cases hk : anyUnnamed (propertyKeys h s.node) with
    | true =>
      rw [objectDeclaration, required_eq hr, Traced.error?_ok_bind, Traced.error?_bind,
        error?_properties, hk]
      rfl
    | false =>
      rw [objectDeclaration_eq hr hk, Traced.notes, Traced.error?_ok_bind,
        Traced.error?_bind_of_forall (e := none) fun fields => rfl, error?_fields, Option.or_none]
      rfl

theorem element_of_some {s c : Stand} (hi : s.items? h = some c) :
    element h visit s.node s.site = visit c.node c.site := by
  obtain ⟨a, ha, rfl⟩ := Option.map_eq_some_iff.mp hi
  obtain ⟨v, hv, hm⟩ := Option.bind_eq_some_iff.mp ha
  cases Value.mapping?_eq_some.mp hm
  rw [element, hv]
  rfl

theorem element_of_none {s : Stand} (hi : s.items? h = none) :
    element h visit s.node s.site =
      ⟨.ok .unknown, [Finding.itemsNotMapping.atPath s.site.items.path]⟩ := by
  rw [element]
  split
  · next a ha => simp [Stand.items?, ha, Value.mapping?] at hi
  · rfl

/-- The items of an array fail in their visit alone. -/
theorem error?_element (s : Stand) :
    (element h visit s.node s.site).error? =
      (s.items? h).bind fun c => (visit c.node c.site).error? := by
  cases hi : h.find? s.node "items" with
  | none => simp [element, Stand.items?, hi]; rfl
  | some v => cases v <;> simp [element, Stand.items?, hi, Value.mapping?] <;> rfl

theorem error?_invalidReference (v : Value) :
    (shapeOf.invalidReference h site v).error? = tooLongIf (h.shown? v).isNone := by
  rw [shapeOf.invalidReference, Traced.error?_bind_of_forall (e := none) fun s => rfl,
    Traced.error?_ofText, Option.or_none]

theorem error?_referenceShape (v : Value) :
    (referenceShape h site v).error? = tooLongIf (h.shown? v).isNone := by
  fun_cases referenceShape h site v with
  | case1 => exact error?_invalidReference _
  | case2 => rfl
  | case3 => exact error?_invalidReference _

theorem error?_noteUntyped (s : Stand) :
    (s.noteUntyped h).error? = tooLongIf (s.isUntyped h && (h.shown? (s.type h)).isNone) := by
  rw [Stand.noteUntyped]
  cases hu : s.isUntyped h with
  | false => rfl
  | true =>
    rw [if_pos rfl, Traced.error?_bind_of_forall (e := none) fun s => rfl, Traced.error?_ofText,
      Option.or_none]
    rfl

theorem error?_primitive (type : Value) :
    (primitive h node site type).error? =
      (type.unhashable?.map .unhashableType).or (tooLongIf (h.shown? type).isNone) := by
  have shownFails (v : Value) : (do
      Traced.note (.unrecognizedType (← Traced.ofText (h.shown? v))) site.path
      return Shape.unknown).error? = tooLongIf (h.shown? v).isNone := by
    rw [Traced.error?_bind_of_forall (e := none) fun s => rfl, Traced.error?_ofText, Option.or_none]
  cases type with
  | list a | map a => rfl
  | set a | pair a =>
    simp only [primitive, Value.unhashable?, Option.map_none, Option.none_or]
    exact shownFails _
  | scalar c =>
    cases c with
    | str name =>
      simp only [primitive]
      split <;> rfl
    | _ =>
      simp only [primitive, Value.unhashable?, Option.map_none, Option.none_or]
      exact shownFails _

theorem anyUnwritable_append (vs ws : List Value) :
    anyUnwritable h (vs ++ ws) = (anyUnwritable h vs || anyUnwritable h ws) := List.any_append

theorem anyUnwritable_singleton (v : Value) : anyUnwritable h [v] = (h.shown? v).isNone := by
  simp [anyUnwritable]

/-- A level fails at what is wrong with its own node, or else at the first node below it that
fails. -/
theorem error?_level (s : Stand) :
    (s.level h visit).error? =
      (s.fault? h).or ((s.children h).findSome? fun c => (visit c.node c.site).error?) := by
  rw [Stand.level_eq]
  cases hw : s.way h with
  | enum =>
    simp only [Stand.fault?, Stand.unhashable?, Stand.isUnwritable, Stand.shown, Stand.keys,
      Stand.children, hw]
    rw [Traced.error?_bind_of_forall (e := none) fun ms => rfl, error?_members]
    simp [anyUnnamed]
  | reference target =>
    simp only [Stand.fault?, Stand.unhashable?, Stand.isUnwritable, Stand.shown, Stand.keys,
      Stand.children, hw]
    rw [error?_referenceShape, anyUnwritable_singleton]
    simp [anyUnnamed]
  | object =>
    simp only [Stand.fault?, Stand.unhashable?, Stand.isUnwritable, Stand.shown, Stand.keys,
      Stand.children, hw, Option.map_none, Option.none_or]
    have hn : (s.noteUntyped h).error? =
        tooLongIf (anyUnwritable h (if s.isUntyped h then [s.type h] else [])) := by
      rw [error?_noteUntyped]
      cases s.isUntyped h
      · rfl
      · simp [anyUnwritable]
    rw [Traced.error?_bind_of_forall fun u => Traced.error?_bind_of_forall (e := none) fun d => rfl,
      hn, error?_objectDeclaration, anyUnwritable_append, Option.or_none]
    simp only [Traced.tooLongIf_or, Option.or_assoc]
  | array =>
    simp only [Stand.fault?, Stand.unhashable?, Stand.isUnwritable, Stand.shown, Stand.keys,
      Stand.children, hw]
    rw [Traced.error?_bind_of_forall (e := none) fun item => rfl, error?_element]
    cases s.items? h <;> simp [anyUnwritable, anyUnnamed, tooLongIf]
  | plain type =>
    simp only [Stand.fault?, Stand.unhashable?, Stand.isUnwritable, Stand.shown, Stand.keys,
      Stand.children, hw]
    rw [error?_primitive, anyUnwritable_singleton]
    simp [anyUnnamed]

end SchemaCompiler.Lowering
