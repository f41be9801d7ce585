import SchemaCompiler.Layout
import SchemaCompiler.Proofs.Order
import SchemaCompiler.Proofs.Rendering.Patterns

/-!
What a plan is made of: a view of each declared name, in the order of the names, and the files of the
views. In a plan that went through no two views share a name or a module.
-/
namespace SchemaCompiler

open Text (bind_eq_ok_iff forall₂_of_mapM mapM_eq_ok_iff exists_left_of_mem)

namespace Rendered

variable {r : Registry} {d : Declaration} {v : Rendered} {fields : List FieldView}

/-- What a view has from its declaration and from the settings. -/
structure Shows (r : Registry) (d : Declaration) (v : Rendered) : Prop where
  name : v.name = d.name
  moduleName : v.moduleName = Naming.kebab d.name
  symbol : v.symbol = r.target.symbol d.name
  isEnum : v.isEnum = d.isEnum
  partialSymbol : v.partialSymbol =
    if r.generation.partials && !d.isEnum then r.target.partialSymbol d.name else ""
  formats : v.formats = d.usedFormats
  references : v.references = d.referencedNames
  fields : List.Forall₂ (fun f view => f.validator r = .ok view.expression) d.fields v.fields

theorem expression_of_fieldView {f : Field} {view : FieldView}
    (h : fieldView r f = .ok view) : f.validator r = .ok view.expression := by
  obtain ⟨e, he, h⟩ := bind_eq_ok_iff.mp h
  cases h
  exact he

/-- A view has the fields that it is made of, their comment, and the rest from its declaration and the
settings. -/
theorem made_of_ofFields (h : ofFields r d fields = .ok v) : v.fields = fields ∧
    v.doc = DocComment.lines d.description fields ∧
    (List.Forall₂ (fun f view => f.validator r = .ok view.expression) d.fields fields →
      Shows r d v) := by
  rw [ofFields_eq] at h
  obtain ⟨_, _, h⟩ := bind_eq_ok_iff.mp h
  cases h
  exact ⟨rfl, rfl, fun hf => ⟨rfl, rfl, rfl, rfl, rfl, rfl, rfl, hf⟩⟩

theorem shows_of_ofDeclaration (h : ofDeclaration r d = .ok v) : Shows r d v := by
  obtain ⟨fields, hfields, h⟩ := bind_eq_ok_iff.mp h
  refine (made_of_ofFields (blame_eq_ok.mp h)).2.2 ?_
  exact (forall₂_of_mapM hfields).imp fun f view hview =>
    expression_of_fieldView (blame_eq_ok.mp hview)

/-- A view has the views of the fields of its declaration, and a comment about them. -/
theorem views_of_ofDeclaration (h : ofDeclaration r d = .ok v) :
    List.Forall₂ (fun f view => fieldView r f = .ok view) d.fields v.fields ∧
      v.doc = DocComment.lines d.description v.fields := by
  obtain ⟨fields, hfields, h⟩ := bind_eq_ok_iff.mp h
  obtain ⟨hsame, hdoc, _⟩ := made_of_ofFields (blame_eq_ok.mp h)
  rw [hsame]
  exact ⟨(forall₂_of_mapM hfields).imp fun f view hview => blame_eq_ok.mp hview, hdoc⟩

/-- The fields of a view have the keys of those of its declaration. -/
theorem keys_of_ofDeclaration (h : ofDeclaration r d = .ok v) :
    v.fields.map (·.key) = d.fields.map fun f => Literal.key f.name := by
  rw [← List.forall₂_eq_eq_eq, List.forall₂_map_left_iff, List.forall₂_map_right_iff]
  refine (views_of_ofDeclaration h).1.flip.imp fun view f hview => ?_
  obtain ⟨_, _, hview⟩ := bind_eq_ok_iff.mp hview
  cases hview
  rfl

/-- A view has a partial variant when partial variants are wanted and it is no enum. -/
theorem Shows.hasPartial (h : Shows r d v) :
    v.hasPartial = (r.generation.partials && !d.isEnum) := by
  rw [Rendered.hasPartial, h.partialSymbol]
  split
  · next hp => simp [hp, Target.partialSymbol]
  · next hp => simpa using hp

end Rendered

theorem Registry.isSingleFile_of_multiple {r : Registry} (h : r.output.mode = .multiple) :
    r.isSingleFile = false := by
  rw [isSingleFile, h]
  rfl

namespace Layout

variable {r : Registry} {package : Option String} {ds : List Declaration} {p : Plan}
  {v w : Rendered} {vs : List Rendered}

theorem mem_of_mem_lastOfName {d : Declaration} (h : d ∈ lastOfName ds) : d ∈ ds := by
  induction ds with
  | nil => exact h
  | cons e rest ih =>
    rw [lastOfName, List.foldr_cons] at h
    split at h
    · exact List.mem_cons_of_mem _ (ih h)
    · rcases List.mem_cons.mp h with rfl | h
      · exact List.mem_cons_self
      · exact List.mem_cons_of_mem _ (ih h)

theorem names_lastOfName_nodup : ((lastOfName ds).map (·.name)).Nodup := by
  induction ds with
  | nil => exact List.nodup_nil
  | cons d rest ih =>
    rw [lastOfName, List.foldr_cons]
    split
    · exact ih
    · next hnew =>
      refine List.nodup_cons.mpr ⟨fun hmem => hnew ?_, ih⟩
      obtain ⟨e, he, hname⟩ := List.mem_map.mp hmem
      exact List.any_eq_true.mpr ⟨e, he, beq_iff_eq.mpr hname⟩

theorem mem_names_lastOfName {name : String} :
    name ∈ (lastOfName ds).map (·.name) ↔ name ∈ ds.map (·.name) := by
  induction ds with
  | nil => exact Iff.rfl
  | cons d rest ih =>
    rw [lastOfName, List.foldr_cons]
    split
    · next hold =>
      obtain ⟨e, he, hname⟩ := List.any_eq_true.mp hold
      rw [List.map_cons, List.mem_cons, ← ih]
      refine ⟨.inr, ?_⟩
      rintro (rfl | h)
      · exact List.mem_map.mpr ⟨e, he, beq_iff_eq.mp hname⟩
      · exact h
    · rw [List.map_cons, List.map_cons, List.mem_cons, List.mem_cons, ← ih]
      rfl

theorem mem_of_mem_ordered {d : Declaration} (h : d ∈ ordered ds) : d ∈ ds :=
  mem_of_mem_lastOfName ((List.mergeSort_perm _ _).mem_iff.mp h)

theorem mem_names_ordered {name : String} :
    (∃ d ∈ ordered ds, d.name = name) ↔ ∃ d ∈ ds, d.name = name := by
  have h : name ∈ (lastOfName ds).map (·.name) ↔ name ∈ ds.map (·.name) := mem_names_lastOfName
  rw [List.mem_map, List.mem_map] at h
  rw [← h]
  exact exists_congr fun d => and_congr_left fun _ => (List.mergeSort_perm _ _).mem_iff

theorem ordered_sorted : (ordered ds).Pairwise (·.name < ·.name) := by
  have hle : (ordered ds).Pairwise (·.name ≤ ·.name) := pairwise_mergeSort_le Declaration.name _
  have hne : (ordered ds).Pairwise (·.name ≠ ·.name) := by
    rw [← List.pairwise_map]
    exact ((List.mergeSort_perm _ _).map _).nodup_iff.mpr names_lastOfName_nodup
  exact (hle.and hne).imp fun h => lt_of_le_of_ne h.1 h.2

theorem lastOfName_eq_self (h : (ds.map (·.name)).Nodup) : lastOfName ds = ds := by
  induction ds with
  | nil => rfl
  | cons d rest ih =>
    obtain ⟨hnew, hrest⟩ := List.nodup_cons.mp h
    have hkept : rest.any (·.name == d.name) = false := by
      rw [List.any_eq_false]
      exact fun e he hname => hnew (List.mem_map.mpr ⟨e, he, beq_iff_eq.mp hname⟩)
    change (if (lastOfName rest).any (·.name == d.name) then _ else d :: lastOfName rest) = _
    rw [ih hrest, hkept]
    rfl

/-- The last declaration with a name. -/
def latest? (ds : List Declaration) (name : String) : Option Declaration :=
  (ds.filter (·.name == name)).getLast?

theorem filter_lastOfName (ds : List Declaration) (name : String) :
    (lastOfName ds).filter (·.name == name) = (latest? ds name).toList := by
  induction ds with
  | nil => rfl
  | cons d rest ih =>
    have hlast : lastOfName (d :: rest) =
        if (lastOfName rest).any (·.name == d.name) then lastOfName rest
        else d :: lastOfName rest := rfl
    rw [hlast, latest?, List.filter_cons]
    by_cases hname : d.name = name
    · rw [if_pos (beq_iff_eq.mpr hname), hname]
      rw [latest?] at ih
      split
      · next hany =>
        -- A later declaration has the name, so this one is not the last.
        obtain ⟨e, he, hename⟩ := List.any_eq_true.mp hany
        have hmem : e ∈ (lastOfName rest).filter (·.name == name) := List.mem_filter.mpr ⟨he, hename⟩
        rw [ih] at hmem
        cases hrest : rest.filter (·.name == name) with
        | nil => simp [hrest] at hmem
        | cons f more => rw [ih, hrest, List.getLast?_cons_cons]
      · next hany =>
        have hnone : (lastOfName rest).filter (·.name == name) = [] := by
          rw [List.filter_eq_nil_iff]
          intro e he hename
          exact hany (List.any_eq_true.mpr ⟨e, he, hename⟩)
        have hempty : rest.filter (·.name == name) = [] := by
          rw [hnone] at ih
          simpa using ih.symm
        rw [List.filter_cons, if_pos (beq_iff_eq.mpr hname), hnone, hempty]
        rfl
    · have hskip : ¬ (d.name == name) = true := by simpa using hname
      rw [if_neg hskip, ← latest?, ← ih]
      split
      · rfl
      · rw [List.filter_cons, if_neg hskip]

/-- What is laid out depends on the last declaration of each name only. -/
theorem ordered_congr {ds' : List Declaration} (h : ∀ name, latest? ds name = latest? ds' name) :
    ordered ds = ordered ds' := by
  refine Rearranged.mergeSort_eq fun name => ?_
  rw [filter_lastOfName, filter_lastOfName, h]

/-- Declarations in strict order of their names are laid out as they stand. -/
theorem ordered_eq_self (h : ds.Pairwise (·.name < ·.name)) : ordered ds = ds := by
  rw [ordered, lastOfName_eq_self (List.pairwise_map.mpr (h.imp fun h => h.ne))]
  exact List.mergeSort_of_pairwise (h.imp fun h => decide_eq_true h.le)

/-- Putting declarations in order loses none of them just when each has a name of its own. -/
theorem ordered_perm_iff : (ordered ds).Perm ds ↔ (ds.map (·.name)).Nodup := by
  constructor
  · intro hperm
    refine (hperm.map (·.name)).nodup_iff.mp (List.pairwise_map.mpr ?_)
    exact ordered_sorted.imp fun hlt => hlt.ne
  · intro hnodup
    rw [ordered, lastOfName_eq_self hnodup]
    exact List.mergeSort_perm _ _

theorem lookup_cons_eq_some {owners : List (String × String)} {key owner name value : String} :
    ((key, value) :: owners).lookup name = some owner ↔
      (name = key ∧ value = owner) ∨ (name ≠ key ∧ owners.lookup name = some owner) := by
  by_cases h : name = key
  · simp [h]
  · simp [List.lookup_cons, beq_false_of_ne h, h]

/-- No view clashes when none has the module of the index, of an owner with another name, or of
another view with another name. -/
theorem clash?_eq_none {owners : List (String × String)} : clash? owners vs = none ↔
    (∀ v ∈ vs, v.moduleName ≠ indexModule) ∧
    (∀ v ∈ vs, ∀ owner, owners.lookup v.moduleName = some owner → owner = v.name) ∧
    vs.Pairwise fun v w => v.moduleName = w.moduleName → v.name = w.name := by
  induction vs generalizing owners with
  | nil => simp [clash?]
  | cons v rest ih =>
    rw [clash?, List.forall_mem_cons, List.forall_mem_cons, List.pairwise_cons]
    by_cases hi : v.moduleName = indexModule
    · simp [hi]
    · -- The first view of a module becomes its owner, and stays it for all views that follow.
      cases hl : owners.lookup v.moduleName with
      | none =>
        simp only [beq_iff_eq, hi, if_false, ih, lookup_cons_eq_some]
        constructor
        · rintro ⟨hindex, howners, hrest⟩
          refine ⟨⟨hi, hindex⟩, ⟨nofun, fun w hw owner ho => ?_⟩, fun w hw hm => ?_, hrest⟩
          · by_cases hm : w.moduleName = v.moduleName
            · rw [hm, hl] at ho
              cases ho
            · exact howners w hw owner (.inr ⟨hm, ho⟩)
          · exact howners w hw v.name (.inl ⟨hm.symm, rfl⟩)
        · rintro ⟨⟨_, hindex⟩, ⟨_, howners⟩, hv, hrest⟩
          refine ⟨hindex, fun w hw owner ho => ?_, hrest⟩
          rcases ho with ⟨hm, rfl⟩ | ⟨_, ho⟩
          · exact hv w hw hm.symm
          · exact howners w hw owner ho
      | some owner =>
        by_cases hn : owner = v.name
        · simp only [beq_iff_eq, hi, if_false, hn, if_true, ih]
          constructor
          · rintro ⟨hindex, howners, hrest⟩
            refine ⟨⟨hi, hindex⟩, ⟨fun o ho => (Option.some.inj ho).symm, howners⟩,
              fun w hw hm => howners w hw v.name ?_, hrest⟩
            rw [← hm, hl, hn]
          · rintro ⟨⟨_, hindex⟩, ⟨_, howners⟩, _, hrest⟩
            exact ⟨hindex, howners, hrest⟩
        · simp [hi, hn]

theorem moduleFile_name : (moduleFile r vs v).name = v.moduleName ++ r.target.fileExtension := rfl

/-- The package manifest, if one is wanted. -/
def manifests (r : Registry) (package : Option String) : List PlannedFile :=
  if r.generation.manifest then [manifestFile r (packageName r package) (entryPoint r)] else []

/-- What a plan that went through is made of. The views are in the order of the declarations. -/
structure Planned (r : Registry) (package : Option String) (ds : List Declaration) (p : Plan)
    (vs : List Rendered) : Prop where
  rendered : List.Forall₂ (fun d v => Rendered.ofDeclaration r d = .ok v) (ordered ds) vs
  sorted : vs.Pairwise (·.name < ·.name)
  symbols : p.symbols = vs.flatMap exported
  unclashed : r.isSingleFile = false → clash? [] vs = none
  files : r.isSingleFile = false →
    p.files = vs.map (moduleFile r vs) ++ [indexFile r vs] ++ manifests r package
  together : r.isSingleFile = true → p.files = singleFile r vs :: manifests r package

theorem Planned.shown (h : Planned r package ds p vs) :
    List.Forall₂ (Rendered.Shows r) (ordered ds) vs :=
  h.rendered.imp fun _ _ => Rendered.shows_of_ofDeclaration

theorem Planned.moduleFile_mem (h : Planned r package ds p vs) (hm : r.isSingleFile = false)
    (hv : v ∈ vs) : moduleFile r vs v ∈ p.files := by
  rw [h.files hm, List.append_assoc]
  exact List.mem_append_left _ (List.mem_map_of_mem hv)

theorem names_eq (h : List.Forall₂ (Rendered.Shows r) ds vs) :
    vs.map (·.name) = ds.map (·.name) := by
  induction h with
  | nil => rfl
  | cons h _ ih => rw [List.map_cons, List.map_cons, h.name, ih]

theorem moduleNames_eq (h : List.Forall₂ (Rendered.Shows r) ds vs) :
    vs.map (·.moduleName) = ds.map fun d => Naming.kebab d.name := by
  induction h with
  | nil => rfl
  | cons h _ ih => rw [List.map_cons, List.map_cons, h.moduleName, ih]

theorem sorted_of_shown (h : List.Forall₂ (Rendered.Shows r) (ordered ds) vs) :
    vs.Pairwise (·.name < ·.name) := by
  rw [← List.pairwise_map (f := Rendered.name), names_eq h, List.pairwise_map]
  exact ordered_sorted

/-- Views in order of their names are planned as they stand. -/
theorem plan_eq (h : vs.Pairwise (·.name < ·.name)) : plan r package vs =
    sourceFiles r vs >>= fun sources =>
      .ok ⟨r.output.mode, sources ++ manifests r package, vs.flatMap exported⟩ := by
  rw [plan, List.mergeSort_of_pairwise (h.imp fun h => decide_eq_true h.le)]
  rfl

theorem sourceFiles_of_multiple (hm : r.isSingleFile = false) {sources : List PlannedFile} :
    sourceFiles r vs = .ok sources ↔
      clash? [] vs = none ∧ sources = vs.map (moduleFile r vs) ++ [indexFile r vs] := by
  rw [sourceFiles, hm]
  cases clash? [] vs with
  | some e => simp
  | none => simp [eq_comm]

theorem sourceFiles_of_single (hs : r.isSingleFile = true) :
    sourceFiles r vs = .ok [singleFile r vs] := if_pos hs

/-- A plan goes through when the declarations can be rendered and their files can be laid out. -/
theorem ofDeclarations_eq_ok : ofDeclarations r package ds = .ok p ↔
    ∃ vs sources, List.Forall₂ (fun d v => Rendered.ofDeclaration r d = .ok v) (ordered ds) vs ∧
      sourceFiles r vs = .ok sources ∧
      p = ⟨r.output.mode, sources ++ manifests r package, vs.flatMap exported⟩ := by
  refine bind_eq_ok_iff.trans (exists_congr fun vs => ?_)
  rw [mapM_eq_ok_iff]
  constructor
  · rintro ⟨hvs, h⟩
    have hsorted := sorted_of_shown (hvs.imp fun _ _ => Rendered.shows_of_ofDeclaration)
    rw [plan_eq hsorted] at h
    cases hsources : sourceFiles r vs with
    | error e =>
      rw [hsources] at h
      cases h
    | ok sources =>
      rw [hsources] at h
      cases h
      exact ⟨sources, hvs, rfl, rfl⟩
  · rintro ⟨sources, hvs, hsources, rfl⟩
    have hsorted := sorted_of_shown (hvs.imp fun _ _ => Rendered.shows_of_ofDeclaration)
    refine ⟨hvs, ?_⟩
    rw [plan_eq hsorted, hsources]
    rfl

theorem exists_planned (h : ofDeclarations r package ds = .ok p) :
    ∃ vs, Planned r package ds p vs := by
  obtain ⟨vs, sources, hvs, hsources, rfl⟩ := ofDeclarations_eq_ok.mp h
  have hsorted := sorted_of_shown (hvs.imp fun _ _ => Rendered.shows_of_ofDeclaration)
  refine ⟨vs, hvs, hsorted, rfl, fun hm => ?_, fun hm => ?_, fun hs => ?_⟩
  · exact ((sourceFiles_of_multiple hm).mp hsources).1
  · rw [((sourceFiles_of_multiple hm).mp hsources).2]
  · cases (sourceFiles_of_single hs).symm.trans hsources
    rfl

/-- The modules of the declarations are different from each other and from the index. -/
theorem modules_nodup (h : Planned r package ds p vs) (hm : r.isSingleFile = false) :
    (indexModule :: (ordered ds).map fun d => Naming.kebab d.name).Nodup := by
  obtain ⟨hindex, _, hmodules⟩ := clash?_eq_none.mp (h.unclashed hm)
  rw [← moduleNames_eq h.shown]
  refine List.nodup_cons.mpr ⟨fun hmem => ?_, List.pairwise_map.mpr ?_⟩
  · obtain ⟨v, hv, heq⟩ := List.mem_map.mp hmem
    exact hindex v hv heq
  · exact (hmodules.and h.sorted).imp fun hvw heq => hvw.2.ne (hvw.1 heq)

/-- Declarations that have modules of their own have a plan, and in a single file all have one. -/
theorem exists_plan (ht : r.target.IsPlain) (hm : r.isSingleFile = false →
    (indexModule :: (ordered ds).map fun d => Naming.kebab d.name).Nodup) :
    ∃ p, ofDeclarations r package ds = .ok p := by
  obtain ⟨vs, hvs⟩ : ∃ vs, (ordered ds).mapM (Rendered.ofDeclaration r) = .ok vs :=
    Text.mapM_ok fun d _ => (exists_rendered ht d).imp fun v hv => hv.1
  have hshown := (forall₂_of_mapM hvs).imp fun _ _ => Rendered.shows_of_ofDeclaration
  obtain ⟨sources, hsources⟩ : ∃ sources, sourceFiles r vs = .ok sources := by
    by_cases hs : r.isSingleFile = false
    · have hmodules := hm hs
      rw [← moduleNames_eq hshown] at hmodules
      obtain ⟨hindex, hdistinct⟩ := List.nodup_cons.mp hmodules
      refine ⟨_, (sourceFiles_of_multiple hs).mpr ⟨clash?_eq_none.mpr ⟨?_, nofun, ?_⟩, rfl⟩⟩
      · exact fun v hv heq => hindex (List.mem_map.mpr ⟨v, hv, heq⟩)
      · exact (List.pairwise_map.mp hdistinct).imp fun hne heq => absurd heq hne
    · exact ⟨_, sourceFiles_of_single (by simpa using hs)⟩
  exact ⟨_, ofDeclarations_eq_ok.mpr ⟨vs, sources, forall₂_of_mapM hvs, hsources, rfl⟩⟩

end Layout
end SchemaCompiler
