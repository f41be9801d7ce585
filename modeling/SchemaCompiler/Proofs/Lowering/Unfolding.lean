import SchemaCompiler.Proofs.Lowering.Tree

/-!
Lowering is lowering the unfolded trees. Where the guard stops nothing, every visited node unfolds
to a tree, and its visit does what plain recursion over the tree does.
-/
namespace SchemaCompiler.Lowering

variable {h : Heap} {limit : Int} {entries : Entries} {s c : Stand} {node : Address} {site : Site}
  {visit : Address → Site → Traced Shape}

theorem Unfolds.node_eq {t : Tree} (hu : Unfolds h node t) : t.node = node := by
  cases hu <;> rfl

/-- The properties of a node fail, or they are those sorted by name. -/
theorem properties_bind {α : Type} (f : List (String × Value) → Traced α) :
    properties h node site >>= f =
      properties h node site >>= fun _ => f (namedProperties h node) := by
  cases hk : anyUnnamed (propertyKeys h node) with
  | false => rw [properties_eq hk, Traced.ok_bind, Traced.ok_bind]
  | true =>
    have herr : (properties h node site).error? = some .numberTooLong := by
      rw [error?_properties, hk]
      rfl
    rw [Traced.error?_eq_some] at herr
    rw [Traced.bind_def, Traced.bind, herr, Traced.bind_def, Traced.bind, herr]

/-- Going through properties is going through the trees that they unfold to, when the visits of
their mappings agree with the trees. -/
theorem collect_fields {l : List (String × Value)} {f : Forest} (hf : UnfoldsAll h l f)
    (hv : ∀ name a t, (name, .map a) ∈ l → Unfolds h a t →
      visit a (site.property name) = t.shape h (site.property name)) (names : List String) :
    Traced.collect (field h visit site names) l = f.fields h site names := by
  induction l generalizing f with
  | nil =>
    cases hf
    rfl
  | cons p rest ih =>
    cases hf with
    | @schema name a _ t f ht hf =>
      have hrest := ih hf fun name a t hm => hv name a t (List.mem_cons_of_mem _ hm)
      rw [Traced.collect, hrest, Forest.fields, field, hv name a t (by simp) ht, ht.node_eq]
      simp
    | @other name v _ f hm hf =>
      have hrest := ih hf fun name a t hm => hv name a t (List.mem_cons_of_mem _ hm)
      rw [Traced.collect, hrest, Forest.fields]
      cases v with
      | map a => cases hm
      | _ => simp [field]

/-- An object node is declared with the fields that its properties unfold to. -/
theorem objectDeclaration_of_unfoldsAll {f : Forest} (hf : UnfoldsAll h (namedProperties h node) f)
    (hv : ∀ name a t, (name, .map a) ∈ namedProperties h node → Unfolds h a t →
      visit a (site.property name) = t.shape h (site.property name)) :
    objectDeclaration h visit node site = objectOf h node site (f.fields h site) := by
  have hc := collect_fields hf hv
  simp only [objectDeclaration, objectOf]
  congr 1
  funext names
  rw [properties_bind]
  simp only [hc]

/-- Properties unfold when their mappings do. -/
theorem exists_unfoldsAll {l : List (String × Value)}
    (hl : ∀ name a, (name, .map a) ∈ l → ∃ t, Unfolds h a t) : ∃ f, UnfoldsAll h l f := by
  induction l with
  | nil => exact ⟨_, .nil⟩
  | cons p rest ih =>
    obtain ⟨name, v⟩ := p
    obtain ⟨f, hf⟩ := ih fun name a hm => hl name a (List.mem_cons_of_mem _ hm)
    cases hv : v.mapping? with
    | none => exact ⟨_, .other hv hf⟩
    | some a =>
      cases Value.mapping?_eq_some.mp hv
      obtain ⟨t, ht⟩ := hl name a (by simp)
      exact ⟨_, .schema ht hf⟩

namespace Stand

/-- The guard stops no visit from a stand on. -/
def Unguarded (h : Heap) (limit : Int) (s : Stand) : Prop :=
  ∀ p c, s.descend h p = some c → c.guard? limit = none

theorem Unguarded.guard?_eq_none (hs : s.Unguarded h limit) : s.guard? limit = none := hs [] s rfl

theorem Unguarded.below (hs : s.Unguarded h limit) (hc : c ∈ s.children h) :
    c.Unguarded h limit := by
  obtain ⟨i, hi⟩ := List.mem_iff_getElem?.mp hc
  intro p c' hp
  exact hs (i :: p) c' (by rw [descend, hi]; exact hp)

/-- Where the guard stops nothing, a visit is the lowering of the tree that its node unfolds to. -/
theorem visit_of_unfolds {t : Tree} (hu : Unfolds h s.node t) (ho : s.outer ≠ [])
    (hg : s.Unguarded h limit) : s.visit h limit = t.shape h s.site := by
  induction s using visit_induction h limit generalizing t with
  | step s ih =>
    have hn := hg.guard?_eq_none
    have hbelow (c : Stand) (hc : c ∈ s.children h) (t : Tree) (ht : Unfolds h c.node t) :
        c.visit h limit = t.shape h c.site :=
      ih hn c hc ht (outer_ne_nil_of_mem_children hc) (hg.below hc)
    rw [visit_eq_level hn, level_eq, way_of_outer_ne_nil ho]
    -- The stand also gives the chain, so only its node is taken apart with the tree.
    generalize hnode : s.node = node at hu
    cases hu with
    | enum hw => simp [hw, hnode, Tree.shape, enumShape, ho, type]
    | reference hw => simp only [hw, Tree.shape]
    | object hw hf =>
      subst hnode
      have hway : s.way h = .object := (way_of_outer_ne_nil ho).trans hw
      have hd : objectDeclaration h (fun node site => (s.below node site).visit h limit) s.node
          s.site = objectOf h s.node s.site _ := objectDeclaration_of_unfoldsAll hf
        fun name a t hm ht => hbelow _ (mem_children_of_property hway hm) t ht
      have hu : s.isUntyped h = false := by simp [isUntyped, ho]
      simp [hw, Tree.shape, hd, noteUntyped, hu]
    | array hw hi ht =>
      subst hnode
      have hway : s.way h = .array := (way_of_outer_ne_nil ho).trans hw
      simp only [hw, element, hi, Tree.shape]
      rw [hbelow _ (mem_children_of_items hway hi) _ ht]
      rfl
    | bareArray hw hi =>
      subst hnode
      simp only [hw, Tree.shape]
      rw [element_of_none (by simp [items?, hi])]
      rfl
    | plain hw => simp only [hw, Tree.shape]

/-- Where the guard stops nothing, a node below the schemas unfolds to a tree. -/
theorem exists_unfolds (ho : s.outer ≠ []) (hg : s.Unguarded h limit) :
    ∃ t, Unfolds h s.node t := by
  induction s using visit_induction h limit with
  | step s ih =>
    have hbelow (c : Stand) (hc : c ∈ s.children h) : ∃ t, Unfolds h c.node t :=
      ih hg.guard?_eq_none c hc (outer_ne_nil_of_mem_children hc) (hg.below hc)
    cases hw : wayOf h s.node with
    | enum => exact ⟨_, .enum hw⟩
    | reference target => exact ⟨_, .reference hw⟩
    | object =>
      have hway : s.way h = .object := (way_of_outer_ne_nil ho).trans hw
      obtain ⟨f, hf⟩ := exists_unfoldsAll fun name a hm =>
        hbelow _ (mem_children_of_property hway hm)
      exact ⟨_, .object hw hf⟩
    | array =>
      have hway : s.way h = .array := (way_of_outer_ne_nil ho).trans hw
      cases hi : (h.find? s.node "items").bind Value.mapping? with
      | none => exact ⟨_, .bareArray hw hi⟩
      | some a =>
        have hitems : h.find? s.node "items" = some (.map a) := by
          obtain ⟨v, hv, hm⟩ := Option.bind_eq_some_iff.mp hi
          rw [hv, Value.mapping?_eq_some.mp hm]
        obtain ⟨t, ht⟩ := hbelow _ (mem_children_of_items hway hitems)
        exact ⟨_, .array hw hitems ht⟩
    | plain type => exact ⟨_, .plain hw⟩

end Stand

theorem declaration_eq {name : String} (hg : (Stand.ofSchema name node).guard? limit = none) :
    declaration h limit node ⟨name, schemaPath name⟩ = declarationOf h
      (fun below site => ((Stand.ofSchema name node).below below site).visit h limit) node
      ⟨name, schemaPath name⟩ := by
  obtain ⟨room, hr⟩ : ∃ room, limit.toNat = room + 1 := by
    have hl : ¬ limit ≤ 0 := by
      intro hl
      simp [Stand.guard?, Stand.ofSchema, hl] at hg
    exact ⟨limit.toNat - 1, by omega⟩
  have hroom : shape h limit room [node] =
      fun below site => ((Stand.ofSchema name node).below below site).visit h limit := by
    funext below site
    rw [Stand.visit, if_neg (by simp [Stand.below]), hr]
    rfl
  rw [declaration, hr, ← hroom]

theorem declarationOf_eq_object {name : String} (he : h.find? node "enum" = none) :
    declarationOf h visit node ⟨name, schemaPath name⟩ = (do
      (Stand.ofSchema name node).noteUntyped h
      objectDeclaration h visit node ⟨name, schemaPath name⟩) := by
  simp only [declarationOf, he, Stand.noteUntyped, Stand.isUntyped, Stand.type, Stand.ofSchema,
    typeOf, List.isEmpty_nil, Bool.true_and]
  split <;> simp

/-- An entry is declared as the root that it unfolds to. -/
theorem entry_of_unfolds {e : Scalar × Value} {r : Scalar × Root} (hu : UnfoldsEntry h e r)
    (hg : ∀ s, schemaStand? e = some s → s.Unguarded h limit) :
    entry h limit e = (do r.2.declaration? h (← Traced.ofText r.1.text?)) := by
  have hkey : r.1 = e.1 := by cases hu <;> rfl
  rw [hkey]
  cases hk : e.1.text? with
  | none =>
    rw [entry, hk]
    rfl
  | some name =>
    have hs (node : Address) (he : e.2 = .map node) :
        (Stand.ofSchema name node).Unguarded h limit :=
      hg _ (schemaStand?_eq_some.mpr ⟨name, node, hk, he, rfl⟩)
    cases hu with
    | @enum key node he =>
      obtain ⟨v, hv⟩ := Option.isSome_iff_exists.mp he
      simp only at hk
      simp [entry, hk, Root.declaration?, declaration_eq (hs node rfl).guard?_eq_none,
        declarationOf, hv]
    | @object key node f he hf =>
      simp only at hk
      have hdecl : objectDeclaration h
          (fun below site => ((Stand.ofSchema name node).below below site).visit h limit) node
          ⟨name, schemaPath name⟩ = objectOf h node ⟨name, schemaPath name⟩ _ :=
        objectDeclaration_of_unfoldsAll hf fun name' a t hm ht =>
          Stand.visit_of_unfolds ht (List.cons_ne_nil _ _)
            ((hs node rfl).below (Stand.mem_children_of_property (Stand.way_ofSchema he) hm))
      simp [entry, hk, Root.declaration?, declaration_eq (hs node rfl).guard?_eq_none,
        declarationOf_eq_object he, hdecl]
    | @other key v hv =>
      simp only at hk
      cases v with
      | map a => cases hv
      | _ => simp [entry, hk, Root.declaration?]

theorem schemas_of_unfolds {roots : List (Scalar × Root)}
    (hr : List.Forall₂ (UnfoldsEntry h) entries roots)
    (hg : ∀ e ∈ entries, ∀ s, schemaStand? e = some s → s.Unguarded h limit) :
    schemas h limit entries = declarations h roots := by
  induction hr with
  | nil => rfl
  | @cons e r entries roots hu _ ih =>
    have hrest := ih fun e he => hg e (List.mem_cons_of_mem _ he)
    rw [schemas] at hrest ⊢
    rw [Traced.collect, hrest, entry_of_unfolds hu (hg e (by simp))]
    rfl

theorem exists_unfoldsEntry {e : Scalar × Value} (hk : e.1.text?.isSome)
    (hg : ∀ s, schemaStand? e = some s → s.Unguarded h limit) : ∃ r, UnfoldsEntry h e r := by
  obtain ⟨key, v⟩ := e
  obtain ⟨name, hn⟩ := Option.isSome_iff_exists.mp hk
  simp only at hn
  cases hv : v.mapping? with
  | none => exact ⟨_, .other hv⟩
  | some node =>
    cases Value.mapping?_eq_some.mp hv
    have hs := hg _ (schemaStand?_eq_some.mpr ⟨name, node, hn, rfl, rfl⟩)
    cases he : h.find? node "enum" with
    | some w => exact ⟨_, .enum (Option.isSome_iff_exists.mpr ⟨w, he⟩)⟩
    | none =>
      obtain ⟨f, hf⟩ := exists_unfoldsAll (h := h) (l := namedProperties h node) fun name' a hm =>
        have hc := Stand.mem_children_of_property (Stand.way_ofSchema he) hm
        Stand.exists_unfolds (Stand.outer_ne_nil_of_mem_children hc) (hs.below hc)
      exact ⟨_, .object he hf⟩

theorem exists_unfoldsEntries (hk : ∀ e ∈ entries, e.1.text?.isSome)
    (hg : ∀ e ∈ entries, ∀ s, schemaStand? e = some s → s.Unguarded h limit) :
    ∃ roots, List.Forall₂ (UnfoldsEntry h) entries roots := by
  induction entries with
  | nil => exact ⟨[], .nil⟩
  | cons e rest ih =>
    obtain ⟨r, hr⟩ := exists_unfoldsEntry (hk e (by simp)) (hg e (by simp))
    obtain ⟨roots, hroots⟩ := ih (fun e he => hk e (List.mem_cons_of_mem _ he))
      fun e he => hg e (List.mem_cons_of_mem _ he)
    exact ⟨r :: roots, .cons hr hroots⟩

end SchemaCompiler.Lowering
