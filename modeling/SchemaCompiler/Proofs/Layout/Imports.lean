import SchemaCompiler.Proofs.Layout.References
import SchemaCompiler.Proofs.Layout.Symbols
import SchemaCompiler.Proofs.ModuleNames

/-!
Imports between the modules of a plan. Where no reference is dangling, a module imports each other
declaration that it refers to by one line, from a module of the same plan, and it imports no others.
-/
namespace SchemaCompiler

open Text (exists_left_of_mem exists_right_of_mem)

/-- The line that imports the validator of a declaration from its module. -/
def Target.importLine (t : Target) (name : String) : String :=
  s!"import \x7b {t.symbol name} \x7d from './{Naming.kebab name}';"

/-- An import line tells the declaration: a longer name would have a shorter module. -/
theorem Target.importLine_injective (t : Target) : Function.Injective t.importLine := by
  intro n m h
  wlog hle : n.toList.length ≤ m.toList.length generalizing n m
  · exact (this h.symm (Nat.le_of_not_le hle)).symm
  have hchars := congrArg String.toList h
  simp only [importLine, symbol, toString, String.toList_append, List.append_assoc,
    List.append_cancel_left_eq] at hchars
  obtain ⟨more, hmore⟩ : n.toList <+: m.toList :=
    List.prefix_of_prefix_length_le (List.prefix_append n.toList _)
      (hchars ▸ List.prefix_append m.toList _) hle
  have hmodule := Naming.length_kebab_le n.toList more
  rw [hmore, String.ofList_toList, String.ofList_toList] at hmodule
  have hlength := congrArg List.length hchars
  simp only [List.length_append] at hlength
  have hsame : more.length = 0 := by
    rw [← hmore, List.length_append] at hlength
    omega
  rw [List.length_eq_zero_iff.mp hsame, List.append_nil] at hmore
  exact String.toList_inj.mp hmore

namespace SourceText

/-- Some line starts the definition of an exported constant. -/
def Exports (lines : List String) (name : String) : Prop :=
  ∃ line ∈ lines, s!"export const {name} = ".toList <+: line.toList

end SourceText

namespace Layout

variable {r : Registry} {package : Option String} {ds : List Declaration} {p : Plan}
  {d : Declaration} {v w : Rendered} {vs : List Rendered} {name : String}

/-- The constants that a definition exports: the symbols, and the functions that check and narrow. -/
def constants (v : Rendered) : List String :=
  exported v ++ if v.hasHelpers then ["validate" ++ v.name, "is" ++ v.name] else []

theorem exports_of_mem_constants {t : Target} (h : name ∈ constants v) :
    SourceText.Exports (SourceText.definition t v) name := by
  simp only [SourceText.Exports, SourceText.definition, List.mem_append, or_and_right, exists_or]
  rw [constants, exported, List.mem_append, List.mem_cons] at h
  rcases h with (rfl | h) | h
  · refine .inl (.inl (.inl (.inr ?_)))
    rw [SourceText.validatorLines]
    split
    · exact ⟨_, List.mem_singleton.mpr rfl, by simp [toString]⟩
    · exact ⟨_, List.mem_cons_self, by simp [toString]⟩
  · split at h
    · next hpartial =>
      rw [List.mem_singleton.mp h, SourceText.partialLines, if_pos hpartial]
      exact .inl (.inr ⟨_, List.mem_cons_of_mem _ List.mem_cons_self, by simp [toString]⟩)
    · cases h
  · split at h
    · next hhelpers =>
      rw [SourceText.helperLines, if_pos hhelpers]
      refine .inr ?_
      rcases List.mem_cons.mp h with rfl | h
      · refine ⟨_, List.mem_cons_of_mem _ List.mem_cons_self, ?_⟩
        simp [toString]
      · rw [List.mem_singleton.mp h]
        refine ⟨_, List.mem_cons_of_mem _ (List.mem_cons_of_mem _
          (List.mem_cons_of_mem _ List.mem_cons_self)), ?_⟩
        simp [toString]
    · cases h

theorem eq_of_name_eq (hs : vs.Pairwise (·.name < ·.name)) (hv : v ∈ vs) (hw : w ∈ vs)
    (h : v.name = w.name) : v = w := by
  by_contra hne
  have : Std.Symm fun v w : Rendered => v.name ≠ w.name := ⟨fun _ _ h => h.symm⟩
  exact (hs.imp fun h => h.ne).forall hv hw hne h

theorem known?_eq_some (hs : vs.Pairwise (·.name < ·.name)) :
    known? vs name = some w ↔ w ∈ vs ∧ w.name = name := by
  rw [known?]
  constructor
  · intro h
    exact ⟨List.mem_reverse.mp (List.mem_of_find?_eq_some h), by simpa using List.find?_some h⟩
  · rintro ⟨hw, hname⟩
    cases hfound : vs.reverse.find? (·.name == name) with
    | none =>
      have hnot := List.find?_eq_none.mp hfound w (List.mem_reverse.mpr hw)
      simp [hname] at hnot
    | some x =>
      have hx := List.mem_reverse.mp (List.mem_of_find?_eq_some hfound)
      have hxname : x.name = name := by simpa using List.find?_some hfound
      rw [eq_of_name_eq hs hx hw (hxname.trans hname.symm)]

/-- The import lines of a module: one for each other declaration of the batch that is referred to. -/
def siblingLines (r : Registry) (ds : List Declaration) (d : Declaration) : List String :=
  (d.referencedNames.filter fun name => ds.any (·.name == name)).map r.target.importLine

theorem siblingImports_shown (hplan : Planned r package ds p vs) (hshown : Rendered.Shows r d v) :
    siblingImports vs v = siblingLines r (ordered ds) d := by
  rw [siblingImports, hshown.references, Declaration.referencedNames,
    sortNames_eq_self sortNames_sorted, siblingLines, ← List.filterMap_eq_map,
    List.filterMap_filter]
  refine List.filterMap_congr fun name hname => ?_
  obtain ⟨hne, _⟩ := Declaration.mem_referencedNames.mp hname
  by_cases hknown : ∃ e ∈ ordered ds, e.name = name
  · obtain ⟨e, he, rfl⟩ := hknown
    obtain ⟨w, hw, hew⟩ := exists_right_of_mem hplan.shown he
    have hany : (ordered ds).any (·.name == e.name) = true :=
      List.any_eq_true.mpr ⟨e, he, beq_self_eq_true _⟩
    have hother : (w.name == v.name) = false := by
      rw [hew.name, hshown.name]
      exact beq_false_of_ne hne
    rw [(known?_eq_some hplan.sorted).mpr ⟨hw, hew.name⟩]
    simp only [hother, hany, SourceText.siblingImport, hew.symbol, hew.moduleName]
    rfl
  · have hany : (ordered ds).any (·.name == name) = false := by
      by_contra hany
      obtain ⟨e, he, hename⟩ := List.any_eq_true.mp (Bool.of_not_eq_false hany)
      exact hknown ⟨e, he, beq_iff_eq.mp hename⟩
    have hnone : known? vs name = none := by
      by_contra hsome
      obtain ⟨w, hw⟩ := Option.ne_none_iff_exists'.mp hsome
      obtain ⟨hmem, rfl⟩ := (known?_eq_some hplan.sorted).mp hw
      obtain ⟨e, he, hew⟩ := exists_left_of_mem hplan.shown hmem
      exact hknown ⟨e, he, hew.name.symm⟩
    rw [hnone, hany]
    rfl

/-- The import lines of a view whose declaration refers to planned names only. -/
theorem siblingImports_eq (hplan : Planned r package ds p vs) (hshown : Rendered.Shows r d v)
    (hknown : ∀ name, d.RefersTo name → ∃ e ∈ ordered ds, e.name = name) :
    siblingImports vs v = (sortNames d.referencedNames).map r.target.importLine := by
  have hall : ∀ name ∈ d.referencedNames, (ordered ds).any (·.name == name) = true := by
    intro name hname
    obtain ⟨e, he, hename⟩ := hknown name (Declaration.mem_referencedNames.mp hname).2
    exact List.any_eq_true.mpr ⟨e, he, beq_iff_eq.mpr hename⟩
  rw [siblingImports_shown hplan hshown, siblingLines, List.filter_eq_self.mpr hall,
    Declaration.referencedNames, sortNames_eq_self sortNames_sorted]

/-- A view exports the symbol of another declaration: as its partial variant, or as a function. -/
def Borrows (t : Target) (v : Rendered) (name : String) : Prop :=
  (v.hasPartial = true ∧ name = v.name ++ "Partial") ∨
    (v.hasHelpers = true ∧ (t.symbol name = "validate" ++ v.name ∨ t.symbol name = "is" ++ v.name))

theorem symbol_mem_constants_iff (h : Rendered.Shows r d v) :
    r.target.symbol name ∈ constants v ↔ v.name = name ∨ Borrows r.target v name := by
  rw [constants, List.mem_append, exported_eq h,
    List.mem_map_of_injective r.target.symbol_injective, mem_exportNames, Borrows, h.hasPartial,
    h.name, Bool.and_eq_true, Bool.not_eq_true', or_assoc, and_assoc, eq_comm]
  refine or_congr_right (or_congr_right ?_)
  split
  · next hhelpers => simp [hhelpers]
  · next hhelpers => simp [hhelpers]

/-- A module is closed: what its declaration refers to is imported, from where it is exported, and
nothing else is imported. -/
structure Closed (r : Registry) (p : Plan) (vs : List Rendered) (d : Declaration) (v : Rendered) :
    Prop where
  planned : moduleFile r vs v ∈ p.files
  /-- There is a line for each other declaration that is referred to, in the order of the names. -/
  lines : ∃ names : List String, names.Pairwise (· < ·) ∧
    siblingImports vs v = names.map r.target.importLine ∧
    ∀ name, name ∈ names ↔ name ≠ d.name ∧ d.RefersTo name
  once : ∀ name, d.RefersTo name → name ≠ d.name →
    (siblingImports vs v).count (r.target.importLine name) = 1
  /-- The module of the name is planned and exports the symbol. Other modules do so only where a
  partial variant or a function has the name of the symbol. -/
  exported : ∀ name, d.RefersTo name → name ≠ d.name → ∃ w ∈ vs,
    w.name = name ∧ w.moduleName = Naming.kebab name ∧ moduleFile r vs w ∈ p.files ∧
    SourceText.Exports (SourceText.definition r.target w) (r.target.symbol name) ∧
    ∀ x ∈ vs, r.target.symbol name ∈ constants x ↔ x = w ∨ Borrows r.target x name
  needed : ∀ line ∈ siblingImports vs v, ∃ name, line = r.target.importLine name ∧
    ∃ view ∈ v.fields, (r.target.symbol name).toList <:+: view.expression.toList

theorem closed_of_shown (ht : r.target ∈ Target.all) (hm : r.isSingleFile = false)
    (hplan : Planned r package ds p vs) (hknown : Lint.references ds = []) (hd : d ∈ ordered ds)
    (hv : v ∈ vs) (hshown : Rendered.Shows r d v) : Closed r p vs d v := by
  have hdeclared : ∀ name, d.RefersTo name → ∃ e ∈ ordered ds, e.name = name := fun name hname =>
    mem_names_ordered.mpr (declared_of_references hknown (mem_of_mem_ordered hd) hname)
  have hlines := siblingImports_eq hplan hshown hdeclared
  have hmem : ∀ name, name ∈ sortNames d.referencedNames ↔ name ≠ d.name ∧ d.RefersTo name :=
    fun name => mem_sortNames.trans Declaration.mem_referencedNames
  refine ⟨hplan.moduleFile_mem hm hv, ⟨_, sortNames_sorted, hlines, hmem⟩, fun name hname hne => ?_,
    fun name hname hne => ?_, fun line hline => ?_⟩
  · have hnodup : (siblingImports vs v).Nodup := by
      rw [hlines]
      exact List.Nodup.map r.target.importLine_injective (sortNames_sorted.imp fun h => h.ne)
    refine List.count_eq_one_of_mem hnodup ?_
    rw [hlines]
    exact List.mem_map_of_mem ((hmem name).mpr ⟨hne, hname⟩)
  · obtain ⟨e, he, rfl⟩ := hdeclared name hname
    obtain ⟨w, hw, hew⟩ := exists_right_of_mem hplan.shown he
    refine ⟨w, hw, hew.name, hew.moduleName, hplan.moduleFile_mem hm hw, ?_, fun x hx => ?_⟩
    · rw [← hew.symbol]
      exact exports_of_mem_constants (List.mem_append_left _ List.mem_cons_self)
    · obtain ⟨_, _, hshownx⟩ := exists_left_of_mem hplan.shown hx
      rw [symbol_mem_constants_iff hshownx, ← hew.name]
      refine or_congr_left ⟨eq_of_name_eq hplan.sorted hx hw, fun h => h ▸ rfl⟩
  · rw [hlines] at hline
    obtain ⟨name, hname, rfl⟩ := List.mem_map.mp hline
    obtain ⟨f, hf, hrefers⟩ := ((hmem name).mp hname).2
    obtain ⟨view, hview, hexpression⟩ := exists_right_of_mem hshown.fields hf
    exact ⟨name, rfl, view, hview, Field.infix_validator ht hrefers hexpression⟩

/-- Where no reference is dangling, all modules of a plan are closed. -/
theorem modules_closed (ht : r.target ∈ Target.all) (hm : r.output.mode = .multiple)
    (hknown : Lint.references ds = []) (hplan : ofDeclarations r package ds = .ok p) :
    ∃ vs, p.files = vs.map (moduleFile r vs) ++ [indexFile r vs] ++ manifests r package ∧
      List.Forall₂ (fun d v => Rendered.ofDeclaration r d = .ok v ∧ Closed r p vs d v)
        (ordered ds) vs := by
  obtain ⟨vs, hvs⟩ := exists_planned hplan
  have hmultiple := Registry.isSingleFile_of_multiple hm
  refine ⟨vs, hvs.files hmultiple, ?_⟩
  rw [List.forall₂_iff_zip]
  refine ⟨hvs.rendered.length_eq, fun {d v} hpair => ?_⟩
  obtain ⟨hd, hv⟩ := List.of_mem_zip hpair
  have hrendered := List.forall₂_zip hvs.rendered hpair
  exact ⟨hrendered, closed_of_shown ht hmultiple hvs hknown hd hv
    (Rendered.shows_of_ofDeclaration hrendered)⟩

/-- Two objects, one with a list of the other. -/
def linked : List Declaration := [
  .object "A" "" [⟨"items", .array (.reference "B"), "", false, true⟩] [],
  .object "B" "" [] []]

theorem linked_closed : Lint.references linked = [] ∧
    ∃ p, ofDeclarations (.defaults .ioTs) none linked = .ok p ∧
    ∃ vs, p.files = vs.map (moduleFile (.defaults .ioTs) vs) ++ [indexFile (.defaults .ioTs) vs] ++
        manifests (.defaults .ioTs) none ∧
      List.Forall₂ (fun d v => Rendered.ofDeclaration (.defaults .ioTs) d = .ok v ∧
        Closed (.defaults .ioTs) p vs d v) (ordered linked) vs := by
  have hknown : Lint.references linked = [] :=
    Lint.references_eq_nil_iff.mpr (by decide +kernel)
  have hordered : ordered linked = linked := ordered_eq_self (by decide +kernel)
  obtain ⟨p, hp⟩ : ∃ p, ofDeclarations (.defaults .ioTs) none linked = .ok p := by
    refine exists_plan (Target.isPlain_of_mem_all List.mem_cons_self) fun _ => ?_
    rw [hordered]
    change [indexModule, Naming.kebab "A", Naming.kebab "B"].Nodup
    rw [Naming.kebab_of_ascii (by decide), Naming.kebab_of_ascii (by decide)]
    decide
  exact ⟨hknown, p, hp, modules_closed List.mem_cons_self rfl hknown hp⟩

/-- An object that refers to one whose symbol another module exports too. -/
def linkedVariants : List Declaration :=
  variants ++ [.object "B" "" [⟨"x", .reference "APartial", "", false, true⟩] []]

theorem ordered_linkedVariants : ordered linkedVariants = linkedVariants :=
  ordered_eq_self (by decide +kernel)

theorem infix_content {line : String}
    (h : line ∈ siblingImports vs w ∨ line ∈ SourceText.definition r.target w) :
    line.toList <:+: (moduleFile r vs w).content.toList := by
  rw [moduleFile, SourceText.moduleText, SourceText.unlines, String.toList_join]
  have hmem : line ∈ SourceText.schemaHeader w.name :: r.imports w.formats ++
      siblingImports vs w ++ "" :: SourceText.definition r.target w := by
    rcases h with h | h
    · exact List.mem_append_left _ (List.mem_append_right _ h)
    · exact List.mem_append_right _ (List.mem_cons_of_mem _ h)
  refine List.IsInfix.trans ?_ (List.infix_of_mem_flatten
    (List.mem_map_of_mem (List.mem_map_of_mem hmem)))
  rw [String.toList_append]
  exact (List.prefix_append _ _).isInfix

/-- With partial variants, a symbol that is imported from one module may be exported by two. -/
theorem variant_exported_twice : Lint.references linkedVariants = [] ∧
    ∃ p, ofDeclarations variantSettings none linkedVariants = .ok p ∧
    ∃ a ∈ p.files, ∃ b ∈ p.files, ∃ c ∈ p.files, a.name = "a.ts" ∧ b.name = "a-partial.ts" ∧
      "export const APartialCodec = ".toList <:+: a.content.toList ∧
      "export const APartialCodec = ".toList <:+: b.content.toList ∧
      "import \x7b APartialCodec \x7d from './a-partial';".toList <:+: c.content.toList := by
  have hknown : Lint.references linkedVariants = [] :=
    Lint.references_eq_nil_iff.mpr (by decide +kernel)
  have ha : Naming.kebab "A" = "a" := by
    rw [Naming.kebab_of_ascii (by decide)]
    decide
  have hpartial : Naming.kebab "APartial" = "a-partial" := by
    rw [Naming.kebab_of_ascii (by decide)]
    decide
  obtain ⟨p, hp⟩ : ∃ p, ofDeclarations variantSettings none linkedVariants = .ok p := by
    refine exists_plan (Target.isPlain_of_mem_all List.mem_cons_self) fun _ => ?_
    rw [ordered_linkedVariants]
    change [indexModule, Naming.kebab "A", Naming.kebab "APartial", Naming.kebab "B"].Nodup
    rw [ha, hpartial, Naming.kebab_of_ascii (by decide)]
    decide
  obtain ⟨vs, hvs⟩ := exists_planned hp
  have hshown := hvs.shown
  rw [ordered_linkedVariants] at hshown
  obtain ⟨u, hu, hua⟩ := exists_right_of_mem hshown (List.mem_cons_self)
  obtain ⟨v, hv, hvb⟩ := exists_right_of_mem hshown (List.mem_cons_of_mem _ List.mem_cons_self)
  obtain ⟨w, hw, hwc⟩ := exists_right_of_mem hshown
    (List.mem_cons_of_mem _ (List.mem_cons_of_mem _ List.mem_cons_self))
  have hexports : ∀ v, variantSettings.target.symbol "APartial" ∈ constants v →
      "export const APartialCodec = ".toList <:+: (moduleFile variantSettings vs v).content.toList :=
    fun v hmem => by
      obtain ⟨line, hline, hprefix⟩ := exports_of_mem_constants hmem
      exact hprefix.isInfix.trans (infix_content (.inr hline))
  refine ⟨hknown, p, hp, _, hvs.moduleFile_mem rfl hu, _, hvs.moduleFile_mem rfl hv, _,
    hvs.moduleFile_mem rfl hw, ?_, ?_, hexports u ?_, hexports v ?_, infix_content (.inl ?_)⟩
  · rw [moduleFile_name, hua.moduleName]
    exact congrArg (· ++ ".ts") ha
  · rw [moduleFile_name, hvb.moduleName]
    exact congrArg (· ++ ".ts") hpartial
  · rw [symbol_mem_constants_iff hua, Borrows, hua.hasPartial, hua.name]
    exact .inr (.inl ⟨rfl, rfl⟩)
  · rw [symbol_mem_constants_iff hvb, hvb.name]
    exact .inl rfl
  · rw [siblingImports_eq hvs hwc fun name hname => ?_]
    · refine List.mem_map.mpr ⟨"APartial", mem_sortNames.mpr (by decide +kernel), ?_⟩
      rw [Target.importLine, hpartial]
      decide +kernel
    · exact mem_names_ordered.mpr (declared_of_references hknown
        (List.mem_cons_of_mem _ (List.mem_cons_of_mem _ List.mem_cons_self)) hname)

end Layout
end SchemaCompiler
