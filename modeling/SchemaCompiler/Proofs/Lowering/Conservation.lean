import SchemaCompiler.Proofs.Lowering.Level

/-!
What a visit leaves out it reports. Every property, enum member and required name of a visited node
is kept or has a note of that visit.
-/
namespace SchemaCompiler

/-- The texts that a visited enum keeps. -/
def Shape.members : Shape → List String
  | .enum _ _ members => members
  | .object none (some d) => d.members
  | _ => []

namespace Lowering

variable {h : Heap} {limit : Int} {node : Address} {site : Site} {path : String} {s : Stand}
  {i : Diagnostic}

/-- When each element is either kept or counted once, no element is lost. -/
theorem length_eq_kept_add_count {α β γ : Type} {xs : List α} {f : α → Option β}
    {g : α → List γ} {p : γ → Bool}
    (hg : ∀ x ∈ xs, (g x).countP p = if (f x).isSome then 0 else 1) :
    xs.length = (xs.filterMap f).length + (xs.flatMap g).countP p := by
  induction xs with
  | nil => rfl
  | cons x rest ih =>
    have hx := hg x (by simp)
    have hrest := ih fun y hy => hg y (by simp [hy])
    rw [List.flatMap_cons, List.countP_append, hx, List.filterMap_cons, List.length_cons, hrest]
    cases f x with
    | none =>
      simp only [Option.isSome_none, Bool.false_eq_true, if_false]
      omega
    | some y =>
      simp only [Option.isSome_some, if_true, List.length_cons]
      omega

theorem code_of_mem_textNotes {finding : String → Finding} {code : String}
    {values : List Value} (hf : ∀ t, (finding t).code = code)
    (hi : i ∈ textNotes h finding path values) : i.code = code := by
  obtain ⟨⟨v, k⟩, _, hi⟩ := List.mem_flatMap.mp hi
  simp only at hi
  split at hi
  · cases hi
  · rw [List.mem_singleton.mp hi]
    exact hf _

theorem code_of_mem_memberNotes (hi : i ∈ memberNotes h node path) :
    i.code = "S007" ∨ i.code = "S008" := by
  rw [memberNotes] at hi
  split at hi
  · exact Or.inl (code_of_mem_textNotes (fun t => rfl) hi)
  · rw [List.mem_singleton.mp hi]
    exact Or.inr rfl

theorem code_of_mem_requiredNotes (hi : i ∈ requiredNotes h node path) : i.code = "S004" := by
  rw [requiredNotes] at hi
  split at hi
  · cases hi
  · exact code_of_mem_textNotes (fun t => rfl) hi
  · rw [List.mem_singleton.mp hi]
    rfl

theorem code_of_mem_propertiesNotes (hi : i ∈ propertiesNotes h node site) : i.code = "S002" := by
  rw [propertiesNotes] at hi
  split at hi
  · cases hi
  · cases hi
  · rw [List.mem_singleton.mp hi]
    rfl

theorem code_of_mem_propertyNotes (hi : i ∈ propertyNotes h node site) : i.code = "S003" := by
  obtain ⟨⟨name, v⟩, _, hi⟩ := List.mem_flatMap.mp hi
  simp only at hi
  split at hi
  · cases hi
  · rw [List.mem_singleton.mp hi]
    rfl

theorem code_of_mem_untypedNotes (hi : i ∈ s.untypedNotes h) : i.code = "S009" := by
  rw [Stand.untypedNotes] at hi
  split at hi
  · rw [List.mem_singleton.mp hi]
    rfl
  · cases hi

/-- No visit leaves the note of a schema that is no mapping. -/
theorem code_ne_of_mem_notes (hi : i ∈ s.notes h) : i.code ≠ "S001" := by
  rw [Stand.notes] at hi
  split at hi
  · rcases code_of_mem_memberNotes hi with hc | hc <;> simp [hc]
  · rw [referenceNotes] at hi
    split at hi
    · cases hi
    · simp [List.mem_singleton.mp hi, Finding.atPath, Finding.code]
  · simp only [List.mem_append] at hi
    rcases hi with ((hi | hi) | hi) | hi
    · simp [code_of_mem_untypedNotes hi]
    · simp [code_of_mem_requiredNotes hi]
    · simp [code_of_mem_propertiesNotes hi]
    · simp [code_of_mem_propertyNotes hi]
  · split at hi
    · cases hi
    · simp [List.mem_singleton.mp hi, Finding.atPath, Finding.code]
  · rw [plainNotes] at hi
    split at hi
    · cases hi
    · simp [List.mem_singleton.mp hi, Finding.atPath, Finding.code]

theorem code_ne_of_mem_visit (hs : (s.visit h limit).error? = none)
    (hi : i ∈ (s.visit h limit).diagnostics) : i.code ≠ "S001" := by
  induction s using Stand.visit_induction h limit with
  | step s ih =>
    obtain ⟨hstop, hbelow⟩ := Stand.error?_visit_eq_none.mp hs
    obtain ⟨left, hv, hp⟩ := Stand.visit_ok hs
    rw [hv] at hi
    rcases List.mem_append.mp (hp.mem_iff.mp hi) with hi | hi
    · exact code_ne_of_mem_notes hi
    · obtain ⟨c, hc, hi⟩ := List.mem_flatMap.mp hi
      exact ih (Stand.stop?_eq_none.mp hstop).1 c hc (hbelow c hc) hi

/-- The paths of the entries of the properties of a node. -/
def propertyPaths (h : Heap) (node : Address) (site : Site) : List (Option String) :=
  (propertyEntries h node).map fun e => e.1.text?.map fun name => (site.property name).path

/-- Whether a diagnostic is about a property of a node that is no mapping. -/
def isAboutProperty (h : Heap) (node : Address) (site : Site) (i : Diagnostic) : Bool :=
  i.code == "S003" && (propertyPaths h node site).contains i.path

/-- Each property of an object node is a field or has a note. -/
theorem properties_conserved (hw : s.way h = .object)
    (hk : anyUnnamed (propertyKeys h s.node) = false) (shape : Stand → Shape) :
    (propertyEntries h s.node).length =
      (s.fields h shape).length + (s.notes h).countP (isAboutProperty h s.node s.site) := by
  have hother {ds : List Diagnostic} {code : String} (hc : code ≠ "S003")
      (hds : ∀ i ∈ ds, i.code = code) : ds.countP (isAboutProperty h s.node s.site) = 0 := by
    rw [List.countP_eq_zero]
    intro i hi
    simp [isAboutProperty, hds i hi, hc]
  simp only [Stand.notes, hw, List.countP_append]
  rw [hother (by decide) fun i hi => code_of_mem_untypedNotes hi,
    hother (by decide) fun i hi => code_of_mem_requiredNotes hi,
    hother (by decide) fun i hi => code_of_mem_propertiesNotes hi, Nat.zero_add,
    Stand.fields, List.length_map, Stand.properties, propertyNotes,
    ← length_namedProperties hk]
  apply length_eq_kept_add_count
  rintro ⟨name, v⟩ hp
  obtain ⟨k, hkv, ht⟩ := mem_namedProperties.mp hp
  have hpath : some (s.site.property name).path ∈ propertyPaths h s.node s.site :=
    List.mem_map.mpr ⟨(k, v), hkv, by simp [ht]⟩
  cases v <;> simp [Stand.property?, Value.mapping?, isAboutProperty, hpath, Finding.atPath,
    Finding.code]

theorem members_enumShape (members : List String) :
    (s.enumShape h members).members = members := by
  rw [Stand.enumShape]
  split <;> rfl

/-- Each member of an enum node is kept or has a note. -/
theorem members_conserved {a : Address} (hw : s.way h = .enum)
    (he : h.find? s.node "enum" = some (.list a)) :
    (h.items a).length =
      (texts h s.node "enum").length + (s.notes h).countP (·.code == "S007") := by
  have hl : ((h.items a).zipIdx.filterMap fun x => x.1.text?).length =
      (texts h s.node "enum").length := by
    rw [texts, listed_of_list he, filterMap_zipIdx]
  simp only [Stand.notes, hw, memberNotes, he, Option.getD_some, textNotes]
  rw [← hl, ← length_eq_kept_add_count, List.length_zipIdx]
  rintro ⟨v, k⟩ _
  cases v.text? <;> simp [Finding.atPath, Finding.code]

/-- The places of the elements of a list that are no texts. -/
def otherPlaces (values : List Value) : List Nat :=
  (values.zipIdx.filter fun x => x.1.text?.isNone).map (·.2)

/-- The path of an element of the list at a path. -/
def elementPath (path : String) (k : Nat) : String := s!"{path}[{k}]"

/-- The notes about the names that a node requires stand at the elements that are no texts. -/
theorem required_conserved {a : Address} (hw : s.way h = .object)
    (hr : h.find? s.node "required" = some (.list a)) :
    ((s.notes h).filter (·.code == "S004")).map (·.path) =
      (otherPlaces (h.items a)).map fun k => some (elementPath (s.site.path ++ ".required") k) := by
  have hother {ds : List Diagnostic} {code : String} (hc : code ≠ "S004")
      (hds : ∀ i ∈ ds, i.code = code) : ds.filter (·.code == "S004") = [] := by
    rw [List.filter_eq_nil_iff]
    intro i hi
    simp [hds i hi, hc]
  have hthis {ds : List Diagnostic} (hds : ∀ i ∈ ds, i.code = "S004") :
      ds.filter (·.code == "S004") = ds := by
    rw [List.filter_eq_self]
    intro i hi
    simp [hds i hi]
  simp only [Stand.notes, hw, List.filter_append]
  rw [hother (by decide) fun i hi => code_of_mem_untypedNotes hi,
    hthis fun i hi => code_of_mem_requiredNotes hi,
    hother (by decide) fun i hi => code_of_mem_propertiesNotes hi,
    hother (by decide) fun i hi => code_of_mem_propertyNotes hi, List.nil_append, List.append_nil,
    List.append_nil]
  simp only [requiredNotes, hr, Option.getD_some, textNotes, otherPlaces]
  induction (h.items a).zipIdx with
  | nil => rfl
  | cons x rest ih =>
    rw [List.flatMap_cons, List.map_append, ih, List.filter_cons]
    cases x.1.text? with
    | some t => rfl
    | none => rfl

/-- What a visit accounts for. Its own diagnostics `own` are those that it leaves besides the visits
below it. -/
structure Conserves (h : Heap) (limit : Int) (s : Stand) (own : List Diagnostic) : Prop where
  recorded : (s.visit h limit).diagnostics.Perm
    (own ++ (s.children h).flatMap fun c => (c.visit h limit).diagnostics)
  properties (a : Address) : s.way h = .object → h.find? s.node "properties" = some (.map a) →
    ∃ d, (s.visit h limit).outcome = .ok (.object none (some d)) ∧
      (h.entries a).length = d.fields.length + own.countP (isAboutProperty h s.node s.site)
  members (a : Address) : s.way h = .enum → h.find? s.node "enum" = some (.list a) →
    ∃ shape, (s.visit h limit).outcome = .ok shape ∧
      (h.items a).length = shape.members.length + own.countP (·.code == "S007")
  required (a : Address) : s.way h = .object → h.find? s.node "required" = some (.list a) →
    ∃ d, (s.visit h limit).outcome = .ok (.object none (some d)) ∧
      (∀ v ∈ h.items a, ∀ name, v.text? = some name → name ∈ d.required) ∧
      (own.filter (·.code == "S004")).map (·.path) =
        (otherPlaces (h.items a)).map fun k => some (elementPath (s.site.path ++ ".required") k)

theorem conserves_of_visit (hs : (s.visit h limit).error? = none) :
    Conserves h limit s (s.notes h) := by
  obtain ⟨left, hv, hp⟩ := Stand.visit_ok hs
  have ho : (s.visit h limit).outcome = .ok (s.shapeBy h (Stand.lowered h limit)) := by rw [hv]
  refine ⟨?_, ?_, ?_, ?_⟩
  · rw [hv]
    exact hp
  · intro a hw ha
    rw [Stand.shapeBy, hw] at ho
    refine ⟨_, ho, ?_⟩
    have hc := properties_conserved hw (named_of_visit hs hw) (Stand.lowered h limit)
    rw [propertyEntries, ha] at hc
    rw [hc, Declaration.object, Declaration.ordered, sortFields, List.length_mergeSort]
  · intro a hw ha
    rw [Stand.shapeBy, hw] at ho
    refine ⟨s.enumShape h (texts h s.node "enum"), ho, ?_⟩
    rw [members_conserved hw ha, members_enumShape]
  · intro a hw ha
    rw [Stand.shapeBy, hw] at ho
    refine ⟨_, ho, ?_, required_conserved hw ha⟩
    intro v hv name hn
    have ht : name ∈ texts h s.node "required" := by
      rw [texts, listed_of_list ha]
      exact List.mem_filterMap.mpr ⟨v, hv, hn⟩
    simpa [Declaration.object, Declaration.ordered, sortNames, List.mem_eraseDups] using ht

end Lowering
end SchemaCompiler
