import SchemaCompiler.Proofs.Lowering.Stop

/-!
What a visit gives that goes through. The raw node decides the shape, up to the shapes of the nodes
below, and the notes that the visit itself leaves; those of the visits below come on top.
-/
namespace SchemaCompiler

namespace Value

/-- The reference that a value is: a text that is not empty. -/
def pointer? : Value → Option String
  | .scalar (.str pointer) => if pointer == "" then none else some pointer
  | _ => none

/-- Whether a value names a scalar type. -/
def isScalarName : Value → Bool
  | .scalar (.str name) => Shape.scalarNames.contains name
  | _ => false

theorem isScalarName_iff {v : Value} :
    v.isScalarName ↔ ∃ name ∈ Shape.scalarNames, v = .str name := by
  fun_cases isScalarName v with
  | case1 name => simp
  | case2 v hv =>
    refine iff_of_false (by simp) ?_
    rintro ⟨name, _, rfl⟩
    exact hv name rfl

end Value

namespace Lowering

variable {h : Heap} {limit : Int} {node : Address} {site : Site} {s : Stand}

/-- The shape of a node that refers to `target`. -/
def referenceTo (target : Value) : Shape :=
  match target.pointer? with
  | some pointer => .reference (Naming.lastSegment pointer)
  | none => .unknown

def referenceNotes (h : Heap) (site : Site) (target : Value) : List Diagnostic :=
  match target.pointer? with
  | some _ => []
  | none => [(Finding.invalidReference (notationOf h target)).atPath s!"{site.path}.$ref"]

/-- The shape of a node whose type is no container. -/
def plainShape (h : Heap) (node : Address) (type : Value) : Shape :=
  match type with
  | .scalar (.str name) =>
    if Shape.scalarNames.contains name then
      .primitive name (((h.find? node "format").bind Value.text?).getD "")
    else .primitive (if name == "" then Shape.unknownName else name) ""
  | _ => .unknown

def plainNotes (h : Heap) (site : Site) (type : Value) : List Diagnostic :=
  if type.isScalarName then []
  else [(Finding.unrecognizedType (notationOf h type)).atPath site.path]

/-- What an object node leaves about the properties that are no mappings. -/
def propertyNotes (h : Heap) (node : Address) (site : Site) : List Diagnostic :=
  (namedProperties h node).flatMap fun (name, v) =>
    if v.mapping?.isSome then []
    else [(Finding.propertyNotMapping name v.kindName).atPath (site.property name).path]

/-- A value that can be written out is written as its notation. -/
theorem shown?_eq_some {v : Value} (hw : (h.shown? v).isNone = false) :
    h.shown? v = some (notationOf h v) := by
  obtain ⟨t, ht⟩ := Option.isSome_iff_exists.mp (by simpa using hw)
  rw [notationOf, ht]
  rfl

theorem primitive_eq {type : Value} (hu : type.unhashable? = none)
    (hw : (h.shown? type).isNone = false) :
    primitive h node site type = ⟨.ok (plainShape h node type), plainNotes h site type⟩ := by
  have hs := shown?_eq_some hw
  cases type with
  | list a | map a => cases hu
  | set a | pair a => simp [primitive, hs, plainShape, plainNotes, Value.isScalarName]; rfl
  | scalar c =>
    cases c with
    | str name =>
      have hq : notationOf h (.scalar (.str name)) = Text.quoted name := by
        rw [notationOf, shown?_of_text (s := name) rfl]
        rfl
      by_cases hn : Shape.scalarNames.contains name
      · simp only [primitive, plainShape, plainNotes, Value.isScalarName, hn, if_true]
        cases hf : h.find? node "format" with
        | none => rfl
        | some v =>
          cases v with
          | scalar f => cases f <;> rfl
          | _ => rfl
      · simp only [primitive, plainShape, plainNotes, Value.isScalarName, hn, hq]
        rfl
    | _ => simp [primitive, hs, plainShape, plainNotes, Value.isScalarName]; rfl

theorem referenceShape_eq {target : Value} (hw : (h.shown? target).isNone = false) :
    referenceShape h site target = ⟨.ok (referenceTo target), referenceNotes h site target⟩ := by
  have hs := shown?_eq_some hw
  have hi (hp : target.pointer? = none) : shapeOf.invalidReference h site target =
      ⟨.ok (referenceTo target), referenceNotes h site target⟩ := by
    simp only [shapeOf.invalidReference, hs, referenceTo, referenceNotes, hp]
    rfl
  fun_cases referenceShape h site target with
  | case1 pointer he => exact hi (by simp [Value.pointer?, he])
  | case2 pointer he => simp [referenceTo, referenceNotes, Value.pointer?, he]; rfl
  | case3 target hn => exact hi (by unfold Value.pointer?; split <;> simp_all)

namespace Stand

/-- What a schema leaves that is neither an object nor an enum. -/
def untypedNotes (h : Heap) (s : Stand) : List Diagnostic :=
  if s.isUntyped h then
    [(Finding.unsupportedSchema s.site.name (notationOf h (s.type h))).atPath s.site.path]
  else []

theorem noteUntyped_eq (hw : anyUnwritable h (if s.isUntyped h then [s.type h] else []) = false) :
    s.noteUntyped h = ⟨.ok (), s.untypedNotes h⟩ := by
  rw [noteUntyped, untypedNotes]
  split
  · next hu =>
    simp only [hu, if_true, anyUnwritable_singleton] at hw
    rw [shown?_eq_some hw]
    rfl
  · rfl

/-- The fields of an object node, given the shapes of the nodes below it. -/
def fields (h : Heap) (shape : Stand → Shape) (s : Stand) : List Field :=
  (s.properties h).map fun c => ⟨c.site.name, shape c, description h c.node, isNullable h c.node,
    (texts h s.node "required").contains c.site.name⟩

/-- The shape of a node, given the shapes of the nodes below it. -/
def shapeBy (h : Heap) (shape : Stand → Shape) (s : Stand) : Shape :=
  match s.way h with
  | .enum => s.enumShape h (texts h s.node "enum")
  | .reference target => referenceTo target
  | .object => .object none (some (.object s.site.name (description h s.node) (s.fields h shape)
      (texts h s.node "required")))
  | .array => .array (((s.items? h).map shape).getD .unknown)
  | .plain type => plainShape h s.node type

/-- What the visit of a node itself leaves. -/
def notes (h : Heap) (s : Stand) : List Diagnostic :=
  match s.way h with
  | .enum => memberNotes h s.node s.site.path
  | .reference target => referenceNotes h s.site target
  | .object => s.untypedNotes h ++ requiredNotes h s.node s.site.path ++
      propertiesNotes h s.node s.site ++ propertyNotes h s.node s.site
  | .array =>
    if (s.items? h).isSome then [] else [Finding.itemsNotMapping.atPath s.site.items.path]
  | .plain type => plainNotes h s.site type

section

variable {visit : Address → Site → Traced Shape} {shape : Stand → Shape}
  {ds : Stand → List Diagnostic}

/-- The field of a property whose mapping is visited. -/
theorem field_of_schema (names : List String) {name : String} {v : Value} {c : Stand}
    (hp : s.property? name v = some c) (hv : visit c.node c.site = ⟨.ok (shape c), ds c⟩) :
    field h visit s.site names (name, v) = ⟨.ok (some ⟨c.site.name, shape c, description h c.node,
      isNullable h c.node, names.contains c.site.name⟩), ds c⟩ := by
  obtain ⟨a, ha, rfl⟩ := Option.map_eq_some_iff.mp hp
  cases Value.mapping?_eq_some.mp ha
  simp only [below] at hv
  rw [field, hv]
  exact Traced.ok_bind_pure _ _ _

/-- A property that is no mapping leaves a note in the place of a field. -/
theorem field_of_other (visit : Address → Site → Traced Shape) (names : List String)
    {name : String} {v : Value}
    (hp : s.property? name v = none) :
    field h visit s.site names (name, v) = ⟨.ok none,
      [(Finding.propertyNotMapping name v.kindName).atPath (s.site.property name).path]⟩ := by
  cases v with
  | map b => cases hp
  | _ => rfl

/-- What going through the properties gives. The notes about the properties and those of the visits
come mixed, in the order of the names. -/
theorem fields_eq (hv : ∀ c ∈ s.properties h, visit c.node c.site = ⟨.ok (shape c), ds c⟩) :
    ∃ left, Traced.collect (field h visit s.site (texts h s.node "required"))
        (namedProperties h s.node) = ⟨.ok (s.fields h shape), left⟩ ∧
      left.Perm (propertyNotes h s.node s.site ++ (s.properties h).flatMap ds) := by
  rw [fields, propertyNotes]
  rw [properties] at hv ⊢
  generalize namedProperties h s.node = l at hv ⊢
  induction l with
  | nil => exact ⟨[], rfl, .nil⟩
  | cons p rest ih =>
    obtain ⟨name, v⟩ := p
    have hrest := List.filterMap_subset (fun p => s.property? p.1 p.2)
      (List.subset_cons_self (name, v) rest)
    obtain ⟨left, he, hp⟩ := ih fun c hc => hv c (hrest hc)
    cases hs : s.property? name v with
    | some c =>
      have hm : v.mapping?.isSome := by
        obtain ⟨a, ha, _⟩ := Option.map_eq_some_iff.mp hs
        rw [ha]
        rfl
      have hf := field_of_schema (h := h) (texts h s.node "required") hs
        (hv c (List.mem_filterMap.mpr ⟨(name, v), by simp, hs⟩))
      refine ⟨ds c ++ left, ?_, ?_⟩
      · rw [Traced.collect, hf, Traced.ok_bind, he, Traced.ok_bind_pure, List.filterMap_cons, hs]
        rfl
      · simp only [List.flatMap_cons, List.filterMap_cons, hs, hm, if_true, List.nil_append]
        refine (hp.append_left _).trans ?_
        rw [← List.append_assoc, ← List.append_assoc]
        exact List.perm_append_comm.append_right _
    | none =>
      have hm : v.mapping?.isSome = false := by simpa [property?] using hs
      have hf := field_of_other (h := h) visit (texts h s.node "required") hs
      refine ⟨(Finding.propertyNotMapping name v.kindName).atPath (s.site.property name).path ::
        left, ?_, ?_⟩
      · rw [Traced.collect, hf, Traced.ok_bind, he, Traced.ok_bind_pure, List.filterMap_cons, hs]
        rfl
      · simpa [hm, hs] using hp

/-- What one level gives when nothing is wrong with its node and the visits below go through. -/
theorem level_ok (hf : s.fault? h = none)
    (hv : ∀ c ∈ s.children h, visit c.node c.site = ⟨.ok (shape c), ds c⟩) :
    ∃ left, s.level h visit = ⟨.ok (s.shapeBy h shape), left⟩ ∧
      left.Perm (s.notes h ++ (s.children h).flatMap ds) := by
  rw [level_eq]
  obtain ⟨hu, hw⟩ := fault?_eq_none.mp hf
  obtain ⟨hshown, hkeys⟩ := Bool.or_eq_false_iff.mp hw
  rw [unhashable?] at hu
  rw [shown] at hshown
  rw [keys] at hkeys
  rw [children] at hv
  simp only [children, shapeBy, notes]
  cases hway : s.way h with
  | enum =>
    simp only [hway] at hshown ⊢
    refine ⟨memberNotes h s.node s.site.path, ?_, by simp⟩
    rw [members_eq hshown]
    exact Traced.ok_bind_pure _ _ _
  | reference target =>
    simp only [hway, anyUnwritable_singleton] at hshown ⊢
    exact ⟨_, referenceShape_eq hshown, by simp⟩
  | object =>
    simp only [hway, anyUnwritable_append, Bool.or_eq_false_iff] at hshown hkeys hv ⊢
    obtain ⟨left, he, hp⟩ := fields_eq hv
    refine ⟨s.untypedNotes h ++ (requiredNotes h s.node s.site.path ++
      propertiesNotes h s.node s.site ++ left), ?_, ?_⟩
    · rw [noteUntyped_eq hshown.1, objectDeclaration_eq hshown.2 hkeys, he, Traced.notes]
      simp only [Traced.ok_bind, Traced.pure_def, List.append_nil]
    · rw [List.append_assoc, List.append_assoc, List.append_assoc, List.append_assoc]
      exact ((hp.append_left _).append_left _).append_left _
  | array =>
    simp only [hway] at hv ⊢
    cases hi : s.items? h with
    | none =>
      refine ⟨[Finding.itemsNotMapping.atPath s.site.items.path], ?_, by simp⟩
      rw [element_of_none hi]
      exact Traced.ok_bind_pure _ _ _
    | some c =>
      refine ⟨ds c, ?_, by simp⟩
      rw [element_of_some hi, hv c (by simp [hi])]
      exact Traced.ok_bind_pure _ _ _
  | plain type =>
    simp only [hway, anyUnwritable_singleton] at hu hshown ⊢
    exact ⟨_, primitive_eq hu hshown, by simp⟩

end

/-- The shape that a visit gives; unknown when the visit fails. -/
def lowered (h : Heap) (limit : Int) (s : Stand) : Shape :=
  match (s.visit h limit).outcome with
  | .ok shape => shape
  | .error _ => .unknown

/-- A visit that goes through gives the shape of its node and leaves its own notes and those of the
visits below. -/
theorem visit_ok (hs : (s.visit h limit).error? = none) :
    ∃ left, s.visit h limit = ⟨.ok (s.shapeBy h (lowered h limit)), left⟩ ∧
      left.Perm (s.notes h ++ (s.children h).flatMap fun c => (c.visit h limit).diagnostics) := by
  obtain ⟨hstop, hbelow⟩ := error?_visit_eq_none.mp hs
  obtain ⟨hg, hf⟩ := stop?_eq_none.mp hstop
  rw [visit_eq_level hg]
  refine level_ok hf fun c hc => ?_
  rw [below_of_mem_children hc]
  obtain ⟨shape, ho⟩ := Traced.error?_eq_none.mp (hbelow c hc)
  rw [lowered, ho]
  exact Traced.eq_ok_of_outcome ho

theorem lowered_eq (hs : (s.visit h limit).error? = none) :
    s.lowered h limit = s.shapeBy h (lowered h limit) := by
  obtain ⟨_, hv, _⟩ := visit_ok hs
  rw [lowered, hv]

end Stand

/-- A visit that goes through can write out the keys of the properties. -/
theorem named_of_visit (hs : (s.visit h limit).error? = none) (hw : s.way h = .object) :
    anyUnnamed (propertyKeys h s.node) = false := by
  have hf := (Stand.stop?_eq_none.mp (Stand.error?_visit_eq_none.mp hs).1).2
  obtain ⟨_, hu⟩ := Stand.fault?_eq_none.mp hf
  simpa [Stand.keys, hw] using (Bool.or_eq_false_iff.mp hu).2

end Lowering
end SchemaCompiler
