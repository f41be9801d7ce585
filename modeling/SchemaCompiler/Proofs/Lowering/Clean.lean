import SchemaCompiler.Proofs.Lowering.Level

/-!
Nodes with nothing malformed in them. A visit that goes through leaves no notes exactly when its
node is clean.
-/
namespace SchemaCompiler.Lowering

variable {h : Heap} {limit : Int} {node : Address} {site : Site} {path : String} {s : Stand}

/-- The members of an enum node are a list of texts. -/
def GoodEnum (h : Heap) (node : Address) : Prop :=
  ∃ a, h.find? node "enum" = some (.list a) ∧ ∀ v ∈ h.items a, v.text?.isSome

/-- The names that a node requires are absent, null or a list of texts. -/
def GoodRequired (h : Heap) (node : Address) : Prop :=
  match (h.find? node "required").getD .null with
  | .scalar .null => True
  | .list a => ∀ v ∈ h.items a, v.text?.isSome
  | _ => False

/-- The properties of a node are absent, null or a mapping of mappings. -/
def GoodProperties (h : Heap) (node : Address) : Prop :=
  match (h.find? node "properties").getD .null with
  | .scalar .null => True
  | .map a => ∀ e ∈ h.entries a, e.2.mapping?.isSome
  | _ => False

/-- Nothing is malformed in a node below the schemas and in the nodes below it. -/
inductive Clean (h : Heap) : Address → Prop
  | enum {node : Address} (he : GoodEnum h node) : Clean h node
  | reference {node : Address} {pointer : String} (he : h.find? node "enum" = none)
      (hr : h.find? node "$ref" = some (.str pointer)) (hp : pointer ≠ "") : Clean h node
  | object {node : Address} (ht : IsTyped h node)
      (ho : h.find? node "type" = some (.str "object")) (hr : GoodRequired h node)
      (hp : GoodProperties h node)
      (hc : ∀ e ∈ propertyEntries h node, ∀ b, e.2 = .map b → Clean h b) : Clean h node
  | array {node b : Address} (ht : IsTyped h node)
      (ha : h.find? node "type" = some (.str "array")) (hi : h.find? node "items" = some (.map b))
      (hc : Clean h b) : Clean h node
  | scalar {node : Address} {name : String} (ht : IsTyped h node)
      (hs : h.find? node "type" = some (.str name)) (hn : name ∈ Shape.scalarNames) : Clean h node

/-- Nothing is malformed in a value that stands for a schema. -/
inductive CleanSchema (h : Heap) : Value → Prop
  | enum {node : Address} (he : GoodEnum h node) : CleanSchema h (.map node)
  | object {node : Address} (he : h.find? node "enum" = none)
      (ho : h.find? node "type" = some (.str "object") ∨ (h.find? node "properties").isSome)
      (hr : GoodRequired h node) (hp : GoodProperties h node)
      (hc : ∀ e ∈ propertyEntries h node, ∀ b, e.2 = .map b → Clean h b) :
      CleanSchema h (.map node)

theorem CleanSchema.exists_map {v : Value} (hc : CleanSchema h v) : ∃ node, v = .map node := by
  cases hc <;> exact ⟨_, rfl⟩

theorem textNotes_eq_nil {finding : String → Finding} {values : List Value} :
    textNotes h finding path values = [] ↔ ∀ v ∈ values, v.text?.isSome := by
  rw [textNotes, List.flatMap_eq_nil_iff]
  constructor
  · intro hn v hv
    obtain ⟨k, hk⟩ := List.mem_iff_getElem?.mp hv
    have hx := hn (v, k) (List.mem_zipIdx_iff_getElem?.mpr hk)
    by_contra hne
    simp [hne] at hx
  · rintro hv ⟨v, k⟩ hx
    have hm := List.mem_of_getElem? (List.mem_zipIdx_iff_getElem?.mp hx)
    simp [hv v hm]

theorem memberNotes_eq_nil (path : String) (he : (h.find? node "enum").isSome) :
    memberNotes h node path = [] ↔ GoodEnum h node := by
  obtain ⟨v, hv⟩ := Option.isSome_iff_exists.mp he
  rw [memberNotes, GoodEnum, hv]
  cases v <;> simp [textNotes_eq_nil]

theorem requiredNotes_eq_nil : requiredNotes h node path = [] ↔ GoodRequired h node := by
  rw [requiredNotes, GoodRequired]
  split <;> simp_all [textNotes_eq_nil]

/-- The keys have texts in a visit that goes through, so no property is overlooked. -/
theorem propertiesNotes_eq_nil (hk : anyUnnamed (propertyKeys h node) = false) :
    propertiesNotes h node site ++ propertyNotes h node site = [] ↔ GoodProperties h node := by
  have hall : propertyNotes h node site = [] ↔
      ∀ e ∈ propertyEntries h node, e.2.mapping?.isSome := by
    rw [propertyNotes, List.flatMap_eq_nil_iff]
    constructor
    · intro hn e he
      obtain ⟨name, ht⟩ := Option.isSome_iff_exists.mp (text?_isSome_of_named hk he)
      have hx := hn (name, e.2) (mem_namedProperties.mpr ⟨e.1, he, ht⟩)
      by_contra hne
      simp [hne] at hx
    · rintro hm ⟨name, v⟩ hp
      obtain ⟨k, hkv, _⟩ := mem_namedProperties.mp hp
      simp [hm (k, v) hkv]
  rw [List.append_eq_nil_iff, hall, propertiesNotes, GoodProperties, propertyEntries]
  cases h.find? node "properties" with
  | none => simp
  | some v =>
    cases v with
    | scalar c => cases c <;> simp
    | _ => simp

theorem GoodEnum.isSome (he : GoodEnum h node) : (h.find? node "enum").isSome := by
  obtain ⟨a, ha, _⟩ := he
  simp [ha]

theorem clean_of_enum (hw : wayOf h node = .enum) : Clean h node ↔ GoodEnum h node := by
  rw [wayOf_eq_enum] at hw
  refine ⟨fun hc => ?_, .enum⟩
  cases hc with
  | enum he => exact he
  | reference he => simp [he] at hw
  | object ht | array ht | scalar ht => simp [ht.1] at hw

theorem clean_of_reference {target : Value} (hw : wayOf h node = .reference target) :
    Clean h node ↔ target.pointer?.isSome := by
  obtain ⟨he, hr⟩ := wayOf_eq_reference.mp hw
  constructor
  · intro hc
    cases hc with
    | enum hg => simpa [he] using hg.isSome
    | reference he hr' hp =>
      rw [hr] at hr'
      cases hr'
      simp [Value.pointer?, hp]
    | object ht | array ht | scalar ht => simp [ht.2] at hr
  · intro hp
    fun_cases Value.pointer? target with
    | case1 => simp_all [Value.pointer?]
    | case2 pointer hne => exact .reference he hr (by simpa using hne)
    | case3 v hv => simp_all [Value.pointer?]

theorem clean_of_object (hw : wayOf h node = .object) : Clean h node ↔ GoodRequired h node ∧
    GoodProperties h node ∧ ∀ e ∈ propertyEntries h node, ∀ b, e.2 = .map b → Clean h b := by
  obtain ⟨ht, ho⟩ := wayOf_eq_object.mp hw
  constructor
  · intro hc
    cases hc with
    | enum hg => simpa [ht.1] using hg.isSome
    | reference he hr => simp [ht.2] at hr
    | object _ _ hr hp hc => exact ⟨hr, hp, hc⟩
    | array _ ha => simp [ho] at ha
    | scalar _ hs hn =>
      rw [ho] at hs
      cases hs
      simp [Shape.scalarNames] at hn
  · rintro ⟨hr, hp, hc⟩
    exact .object ht ho hr hp hc

theorem clean_of_array (hw : wayOf h node = .array) : Clean h node ↔
    ∃ b, h.find? node "items" = some (.map b) ∧ Clean h b := by
  obtain ⟨ht, ha⟩ := wayOf_eq_array.mp hw
  constructor
  · intro hc
    cases hc with
    | enum hg => simpa [ht.1] using hg.isSome
    | reference he hr => simp [ht.2] at hr
    | object _ ho => simp [ha] at ho
    | array _ _ hi hc => exact ⟨_, hi, hc⟩
    | scalar _ hs hn =>
      rw [ha] at hs
      cases hs
      simp [Shape.scalarNames] at hn
  · rintro ⟨b, hi, hc⟩
    exact .array ht ha hi hc

theorem clean_of_plain {type : Value} (hw : wayOf h node = .plain type) :
    Clean h node ↔ type.isScalarName := by
  obtain ⟨ht, htype, ho, ha⟩ := wayOf_eq_plain.mp hw
  constructor
  · intro hc
    cases hc with
    | enum hg => simpa [ht.1] using hg.isSome
    | reference he hr => simp [ht.2] at hr
    | object _ ho' => exact (ho (htype.symm.trans (typeOf_eq_str.mpr ho'))).elim
    | array _ ha' => exact (ha (htype.symm.trans (typeOf_eq_str.mpr ha'))).elim
    | scalar _ hs hn =>
      rw [← htype, typeOf_eq_str.mpr hs]
      simpa [Value.isScalarName] using hn
  · intro hn
    unfold Value.isScalarName at hn
    split at hn
    · exact .scalar ht (typeOf_eq_str.mp htype) (by simpa using hn)
    · cases hn

theorem forall_properties (hk : anyUnnamed (propertyKeys h s.node) = false)
    {motive : Address → Prop} : (∀ c ∈ s.properties h, motive c.node) ↔
      ∀ e ∈ propertyEntries h s.node, ∀ b, e.2 = .map b → motive b := by
  constructor
  · rintro hc ⟨k, v⟩ he b rfl
    obtain ⟨name, ht⟩ := Option.isSome_iff_exists.mp (text?_isSome_of_named hk he)
    exact hc (s.below b (s.site.property name)) (List.mem_filterMap.mpr
      ⟨(name, .map b), mem_namedProperties.mpr ⟨k, he, ht⟩, rfl⟩)
  · intro he c hc
    obtain ⟨⟨name, v⟩, hp, hc⟩ := List.mem_filterMap.mp hc
    obtain ⟨k, hkv, _⟩ := mem_namedProperties.mp hp
    obtain ⟨b, hb, rfl⟩ := Option.map_eq_some_iff.mp hc
    exact he _ hkv _ (Value.mapping?_eq_some.mp hb)

theorem objectNotes_eq_nil (hw : s.way h = .object)
    (hk : anyUnnamed (propertyKeys h s.node) = false) : s.notes h = [] ↔
      s.isUntyped h = false ∧ GoodRequired h s.node ∧ GoodProperties h s.node := by
  simp only [Stand.notes, hw, List.append_assoc]
  rw [List.append_eq_nil_iff, List.append_eq_nil_iff, requiredNotes_eq_nil,
    propertiesNotes_eq_nil hk, Stand.untypedNotes]
  cases s.isUntyped h <;> simp

/-- A node below the schemas is clean when its own visit leaves nothing and the nodes below it are
clean. -/
theorem clean_iff (ho : s.outer ≠ []) (hs : (s.visit h limit).error? = none) :
    (s.notes h = [] ∧ ∀ c ∈ s.children h, Clean h c.node) ↔ Clean h s.node := by
  have hway : s.way h = wayOf h s.node := by simp [Stand.way, ho]
  cases hw : wayOf h s.node with
  | enum =>
    rw [clean_of_enum hw, ← memberNotes_eq_nil s.site.path (wayOf_eq_enum.mp hw)]
    simp [Stand.notes, Stand.children, hway, hw]
  | reference target =>
    rw [clean_of_reference hw]
    simp only [Stand.notes, Stand.children, hway, hw, referenceNotes]
    cases target.pointer? <;> simp
  | object =>
    have hk := named_of_visit hs (hway.trans hw)
    have hu : s.isUntyped h = false := by simp [Stand.isUntyped, ho]
    rw [clean_of_object hw, objectNotes_eq_nil (hway.trans hw) hk]
    simp only [Stand.children, hway, hw, forall_properties hk, hu, true_and, and_assoc]
  | array =>
    rw [clean_of_array hw]
    cases hi : h.find? s.node "items" with
    | none => simp [Stand.notes, Stand.children, hway, hw, Stand.items?, hi]
    | some v =>
      cases v <;>
        simp [Stand.notes, Stand.children, hway, hw, Stand.items?, hi, Value.mapping?, Stand.below]
  | plain type =>
    rw [clean_of_plain hw]
    simp only [Stand.notes, Stand.children, hway, hw, plainNotes]
    cases type.isScalarName <;> simp

theorem diagnostics_eq_nil (hs : (s.visit h limit).error? = none) :
    (s.visit h limit).diagnostics = [] ↔
      s.notes h = [] ∧ ∀ c ∈ s.children h, (c.visit h limit).diagnostics = [] := by
  obtain ⟨left, hv, hp⟩ := Stand.visit_ok hs
  have hn : left = [] ↔ s.notes h ++
      ((s.children h).flatMap fun c => (c.visit h limit).diagnostics) = [] := by
    rw [← List.length_eq_zero_iff, hp.length_eq, List.length_eq_zero_iff]
  rw [hv]
  simp only [hn, List.append_eq_nil_iff, List.flatMap_eq_nil_iff]

/-- A visit below the schemas leaves nothing exactly when its node is clean. -/
theorem visit_clean_iff (ho : s.outer ≠ []) (hs : (s.visit h limit).error? = none) :
    (s.visit h limit).diagnostics = [] ↔ Clean h s.node := by
  induction s using Stand.visit_induction h limit with
  | step s ih =>
    obtain ⟨hstop, hbelow⟩ := Stand.error?_visit_eq_none.mp hs
    rw [diagnostics_eq_nil hs, ← clean_iff ho hs]
    refine and_congr_right fun _ => forall₂_congr fun c hc => ?_
    exact ih (Stand.stop?_eq_none.mp hstop).1 c hc (Stand.outer_ne_nil_of_mem_children hc)
      (hbelow c hc)

/-- The visit of a schema leaves nothing exactly when the schema is clean. -/
theorem schema_clean_iff (ho : s.outer = []) (hs : (s.visit h limit).error? = none) :
    (s.visit h limit).diagnostics = [] ↔ CleanSchema h (.map s.node) := by
  have hbelow (c : Stand) (hc : c ∈ s.children h) :
      (c.visit h limit).diagnostics = [] ↔ Clean h c.node :=
    visit_clean_iff (Stand.outer_ne_nil_of_mem_children hc)
      ((Stand.error?_visit_eq_none.mp hs).2 c hc)
  rw [diagnostics_eq_nil hs, forall₂_congr hbelow]
  cases he : h.find? s.node "enum" with
  | some v =>
    have hw : s.way h = .enum := by simp [Stand.way, ho, he]
    have hm := memberNotes_eq_nil s.site.path (Option.isSome_iff_exists.mpr ⟨v, he⟩)
    simp only [Stand.notes, Stand.children, hw, hm]
    constructor
    · rintro ⟨hg, _⟩
      exact .enum hg
    · rintro (⟨hg⟩ | ⟨hn⟩)
      · exact ⟨hg, by simp⟩
      · simp [he] at hn
  | none =>
    have hw : s.way h = .object := by simp [Stand.way, ho, he]
    have hk := named_of_visit hs hw
    have hu : s.isUntyped h = false ↔
        h.find? s.node "type" = some (.str "object") ∨ (h.find? s.node "properties").isSome := by
      rw [Stand.isUntyped, Stand.type, ho, ← typeOf_eq_str]
      cases h.find? s.node "properties" <;> simp
    simp only [objectNotes_eq_nil hw hk, Stand.children, hw, forall_properties hk, hu]
    constructor
    · rintro ⟨⟨ht, hr, hp⟩, hc⟩
      exact .object he ht hr hp hc
    · rintro (⟨hg⟩ | ⟨_, ht, hr, hp, hc⟩)
      · simpa [he] using hg.isSome
      · exact ⟨⟨ht, hr, hp⟩, hc⟩

end SchemaCompiler.Lowering
