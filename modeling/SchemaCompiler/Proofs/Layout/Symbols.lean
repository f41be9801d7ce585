import Mathlib.Data.List.Nodup
import Mathlib.Data.List.Pairwise
import SchemaCompiler.Proofs.Layout.Plan
import SchemaCompiler.Proofs.ModuleNames

/-!
The symbols that a plan exports. A partial variant has the symbol that a declaration would have whose
name ends in `Partial`, and apart from that no two symbols are the same.
-/
namespace SchemaCompiler

theorem Target.symbol_injective (t : Target) : Function.Injective t.symbol :=
  fun _ _ h => (String.append_left_inj _).mp h

/-- The names whose symbols a declaration exports. -/
def Registry.exportNames (r : Registry) (d : Declaration) : List String :=
  d.name :: if r.generation.partials && !d.isEnum then [d.name ++ "Partial"] else []

namespace Layout

variable {r : Registry} {package : Option String} {ds : List Declaration} {p : Plan}
  {d : Declaration} {v : Rendered} {vs : List Rendered}

theorem exported_eq (h : Rendered.Shows r d v) :
    exported v = (r.exportNames d).map r.target.symbol := by
  rw [exported, Registry.exportNames, h.hasPartial, h.symbol, h.partialSymbol]
  split
  · rfl
  · rfl

theorem mem_exportNames {name : String} : name ∈ r.exportNames d ↔ name = d.name ∨
    (r.generation.partials = true ∧ d.isEnum = false ∧ name = d.name ++ "Partial") := by
  rw [Registry.exportNames, List.mem_cons]
  by_cases h : r.generation.partials = true ∧ d.isEnum = false
  · simp [h]
  · simp only [Bool.and_eq_true, Bool.not_eq_true', h, if_false, List.not_mem_nil, ← and_assoc,
      false_and]

theorem flatMap_exported (h : List.Forall₂ (Rendered.Shows r) ds vs) :
    vs.flatMap exported = (ds.flatMap r.exportNames).map r.target.symbol := by
  induction h with
  | nil => rfl
  | cons hd _ ih => rw [List.flatMap_cons, List.flatMap_cons, List.map_append, exported_eq hd, ih]

theorem ne_append_partial (name : String) : name ≠ name ++ "Partial" := by
  intro h
  have hlength := congrArg String.length h
  simp at hlength

/-- The names whose symbols are exported are listed once each, unless the name of one declaration is
the name of another with `Partial` behind it. -/
theorem exportNames_nodup_iff (h : (ds.map (·.name)).Nodup) :
    (ds.flatMap r.exportNames).Nodup ↔ (r.generation.partials = true →
      ∀ d ∈ ds, d.isEnum = false → ∀ e ∈ ds, e.name ≠ d.name ++ "Partial") := by
  rw [List.nodup_flatMap]
  constructor
  · rintro ⟨_, hdisjoint⟩ hp d hd he e hmem hname
    have hne : d ≠ e := by
      rintro rfl
      exact ne_append_partial _ hname
    have : Std.Symm (Function.onFun List.Disjoint r.exportNames) := ⟨fun _ _ hab _ hb ha => hab ha hb⟩
    exact hdisjoint.forall hd hmem hne
      (mem_exportNames.mpr (.inr ⟨hp, he, hname⟩)) (mem_exportNames.mpr (.inl rfl))
  · intro hclear
    refine ⟨fun d _ => ?_, (List.pairwise_map.mp h).imp_of_mem fun {d e} hd he hne => ?_⟩
    · rw [Registry.exportNames]
      split
      · simp [ne_append_partial]
      · simp
    · intro name hnd hne'
      rcases mem_exportNames.mp hnd with rfl | ⟨hp, hobject, rfl⟩
      · rcases mem_exportNames.mp hne' with heq | ⟨hp, hobject, heq⟩
        · exact hne heq
        · exact hclear hp e he hobject d hd heq
      · rcases mem_exportNames.mp hne' with heq | ⟨_, _, heq⟩
        · exact hclear hp d hd hobject e he heq.symm
        · exact hne ((String.append_left_inj _).mp heq)

theorem symbols_eq (h : ofDeclarations r package ds = .ok p) :
    p.symbols = ((ordered ds).flatMap r.exportNames).map r.target.symbol := by
  obtain ⟨vs, hvs⟩ := exists_planned h
  exact hvs.symbols.trans (flatMap_exported hvs.shown)

/-- The symbols of a plan are those of its declarations and of their partial variants, and they are
distinct exactly when no declaration has the name of the partial variant of another. -/
theorem symbols_nodup_iff (h : ofDeclarations r package ds = .ok p) :
    p.symbols = (ordered ds).flatMap (fun d => r.target.symbol d.name ::
      if r.generation.partials && !d.isEnum then [r.target.partialSymbol d.name] else []) ∧
    (p.symbols.Nodup ↔ (r.generation.partials = true → ∀ d ∈ ordered ds, d.isEnum = false →
      ∀ e ∈ ordered ds, e.name ≠ d.name ++ "Partial")) := by
  have hnames : ((ordered ds).map (·.name)).Nodup :=
    List.pairwise_map.mpr (ordered_sorted.imp fun h => h.ne)
  refine ⟨?_, ?_⟩
  · rw [symbols_eq h, List.map_flatMap]
    refine List.flatMap_congr fun d _ => ?_
    rw [Registry.exportNames]
    split
    · rfl
    · rfl
  · rw [symbols_eq h, List.nodup_map_iff r.target.symbol_injective, exportNames_nodup_iff hnames]

/-- Settings under which objects have partial variants. -/
def variantSettings : Registry :=
  { Registry.defaults .ioTs with generation := { partials := true } }

/-- An object, and another one that has the name of its partial variant. -/
def variants : List Declaration := [.object "A" "" [] [], .object "APartial" "" [] []]

theorem ordered_variants : ordered variants = variants := ordered_eq_self (by decide +kernel)

theorem exists_plan_variants : ∃ p, ofDeclarations variantSettings none variants = .ok p := by
  refine exists_plan (Target.isPlain_of_mem_all List.mem_cons_self) fun _ => ?_
  rw [ordered_variants]
  change [indexModule, Naming.kebab "A", Naming.kebab "APartial"].Nodup
  rw [Naming.kebab_of_ascii (by decide), Naming.kebab_of_ascii (by decide)]
  decide

theorem variants_symbols : ∃ p, ofDeclarations variantSettings none variants = .ok p ∧
    p.symbols = (ordered variants).flatMap (fun d => variantSettings.target.symbol d.name ::
      if variantSettings.generation.partials && !d.isEnum then
        [variantSettings.target.partialSymbol d.name] else []) ∧
    (p.symbols.Nodup ↔ (variantSettings.generation.partials = true → ∀ d ∈ ordered variants,
      d.isEnum = false → ∀ e ∈ ordered variants, e.name ≠ d.name ++ "Partial")) := by
  obtain ⟨p, hp⟩ := exists_plan_variants
  exact ⟨p, hp, symbols_nodup_iff hp⟩

/-- A plan can go through that exports a symbol twice. -/
theorem variant_symbol_repeated :
    ∃ p, ofDeclarations variantSettings none variants = .ok p ∧ ¬ p.symbols.Nodup := by
  obtain ⟨p, hp⟩ := exists_plan_variants
  refine ⟨p, hp, ?_⟩
  rw [symbols_eq hp, ordered_variants]
  decide +kernel

end Layout
end SchemaCompiler
