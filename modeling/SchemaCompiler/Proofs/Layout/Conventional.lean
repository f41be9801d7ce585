import SchemaCompiler.Proofs.Layout.Plan
import SchemaCompiler.Proofs.ModuleNames

/-!
Conventional names and their modules. The name can be read back from the module, a letter after a
hyphen as a capital, and so no two conventional names have one module. Only `Index` has the module of
the index, so declarations with other conventional names can always be laid out in modules.
-/
namespace SchemaCompiler

namespace Naming

variable {c : Char} {cs rest : List Char} {name : String}

/-- The ASCII letters, the digits and the underscore. -/
def isWordChar (c : Char) : Bool := c.isAlphanum || c == '_'

/-- A conventional name: an ASCII capital, then ASCII letters, digits and underscores. -/
def isConventional (name : String) : Bool :=
  match name.toList with
  | [] => false
  | c :: rest => isCapital c && rest.all isWordChar

/-- Every letter after a hyphen in upper case, without the hyphen. -/
def unhyphenated : List Char → List Char
  | '-' :: c :: rest => c.toUpper :: unhyphenated rest
  | c :: rest => c :: unhyphenated rest
  | [] => []

/-- The conventional name that has a module. -/
def ofModule (moduleName : String) : String :=
  match moduleName.toList with
  | [] => ""
  | c :: rest => String.ofList (c.toUpper :: unhyphenated rest)

theorem ascii_of_isWordChar (h : isWordChar c = true) : c.toNat < 128 := by
  have hbelow {d : Char} (hd : d.toNat < 128) (hle : c ≤ d) : c.toNat < 128 :=
    Nat.lt_of_le_of_lt hle hd
  rcases Bool.or_eq_true_iff.mp h with h | h
  · rcases Bool.or_eq_true_iff.mp h with h | hdigit
    · rcases Bool.or_eq_true_iff.mp h with hupper | hlower
      · have hletter : 'A' ≤ c ∧ c ≤ 'Z' := of_decide_eq_true hupper
        exact hbelow (by decide) hletter.2
      · obtain ⟨_, hlast⟩ := Bool.and_eq_true_iff.mp hlower
        have hletter : c ≤ 'z' := of_decide_eq_true hlast
        exact hbelow (by decide) hletter
    · obtain ⟨_, hlast⟩ := Bool.and_eq_true_iff.mp hdigit
      have hfigure : c ≤ '9' := of_decide_eq_true hlast
      exact hbelow (by decide) hfigure
  · rw [beq_iff_eq.mp h]
    decide

theorem isWordChar_of_isCapital (h : isCapital c = true) : isWordChar c = true := by
  simp only [isCapital, Bool.and_eq_true, decide_eq_true_eq] at h
  have hupper : c.isUpper = true := decide_eq_true h
  have halpha : c.isAlpha = true := Bool.or_eq_true_iff.mpr (.inl hupper)
  have hword : c.isAlphanum = true := Bool.or_eq_true_iff.mpr (.inl halpha)
  exact Bool.or_eq_true_iff.mpr (.inl hword)

/-- Lower case makes no hyphen out of a character of a conventional name, and only its capitals are
changed, which upper case gives back. -/
theorem lower_of_isWordChar (h : isWordChar c = true) : c.toLower ≠ '-' ∧
    (isCapital c = true → c.toLower.toUpper = c) ∧ (isCapital c = false → c.toLower = c) := by
  have hall : ∀ n < 128, isWordChar (Char.ofNat n) = true → (Char.ofNat n).toLower ≠ '-' ∧
      (isCapital (Char.ofNat n) = true → (Char.ofNat n).toLower.toUpper = Char.ofNat n) ∧
      (isCapital (Char.ofNat n) = false → (Char.ofNat n).toLower = Char.ofNat n) := by
    decide
  have hc := hall c.toNat (ascii_of_isWordChar h)
  rw [Char.ofNat_toNat] at hc
  exact hc h

theorem unhyphenated_cons (h : c ≠ '-') (rest : List Char) :
    unhyphenated (c :: rest) = c :: unhyphenated rest := by
  rw [unhyphenated.eq_def]
  split
  · next heq =>
    cases heq
    exact absurd rfl h
  · next heq =>
    cases heq
    rfl
  · next heq => cases heq

/-- The characters behind the first one are read back from the module. -/
theorem unhyphenated_hyphenated (h : ∀ c ∈ cs, isWordChar c = true) :
    unhyphenated ((hyphenated cs).map Char.toLower) = cs := by
  induction cs with
  | nil => rfl
  | cons c rest ih =>
    obtain ⟨hc, hrest⟩ := List.forall_mem_cons.mp h
    obtain ⟨hhyphen, hcapital, hsmall⟩ := lower_of_isWordChar hc
    rw [hyphenated, List.flatMap_cons, ← hyphenated]
    by_cases hcap : isCapital c = true
    · rw [if_pos hcap]
      change c.toLower.toUpper :: unhyphenated ((hyphenated rest).map Char.toLower) = _
      rw [hcapital hcap, ih hrest]
    · rw [if_neg hcap, List.singleton_append, List.map_cons, unhyphenated_cons hhyphen, ih hrest,
        hsmall (by simpa using hcap)]

/-- A conventional name is read back from its module. -/
theorem ofModule_kebab (h : isConventional name = true) : ofModule (kebab name) = name := by
  rw [isConventional] at h
  cases hname : name.toList with
  | nil =>
    rw [hname] at h
    cases h
  | cons c rest =>
    rw [hname, Bool.and_eq_true, List.all_eq_true] at h
    obtain ⟨hc, hrest⟩ := h
    have hascii : name.toList.all (·.toNat < 128) = true := by
      rw [hname, List.all_eq_true, List.forall_mem_cons]
      exact ⟨decide_eq_true (ascii_of_isWordChar (isWordChar_of_isCapital hc)),
        fun d hd => decide_eq_true (ascii_of_isWordChar (hrest d hd))⟩
    obtain ⟨_, hcapital, _⟩ := lower_of_isWordChar (isWordChar_of_isCapital hc)
    have hmodule : (kebab name).toList = c.toLower :: (hyphenated rest).map Char.toLower := by
      rw [kebab_of_ascii hascii, hname, String.toList_ofList]
      rfl
    rw [ofModule, hmodule]
    dsimp only
    rw [hcapital hc, unhyphenated_hyphenated hrest, ← hname, String.ofList_toList]

theorem kebab_injOn : Set.InjOn kebab {name | isConventional name = true} := by
  intro m hm n hn heq
  calc m = ofModule (kebab m) := (ofModule_kebab hm).symm
    _ = ofModule (kebab n) := by rw [heq]
    _ = n := ofModule_kebab hn

end Naming

namespace Layout

open Naming (isConventional)
open Text (exists_left_of_mem forall₂_of_mapM mapM_ok)

variable {r : Registry} {package : Option String} {ds : List Declaration} {vs : List Rendered}

theorem kebab_index : Naming.kebab "Index" = indexModule := by
  rw [Naming.kebab_of_ascii (by decide)]
  decide

theorem kebab_eq_index_iff {name : String} (h : isConventional name = true) :
    Naming.kebab name = indexModule ↔ name = "Index" := by
  constructor
  · intro heq
    exact Naming.kebab_injOn h (by decide : isConventional "Index" = true) (heq.trans kebab_index.symm)
  · rintro rfl
    exact kebab_index

section

variable (hds : ∀ d ∈ ds, isConventional d.name = true ∧ d.name ≠ "Index")

include hds

/-- Views of declarations with conventional names do not clash, in whatever order they stand. -/
theorem clash?_of_conventional (hvs : ∀ v ∈ vs, ∃ d ∈ ds, Rendered.ofDeclaration r d = .ok v) :
    clash? [] vs = none := by
  have hviews : ∀ v ∈ vs, isConventional v.name = true ∧ v.name ≠ "Index" ∧
      v.moduleName = Naming.kebab v.name := by
    intro v hv
    obtain ⟨d, hd, hview⟩ := hvs v hv
    have hshows := Rendered.shows_of_ofDeclaration hview
    rw [hshows.moduleName, hshows.name]
    exact ⟨(hds d hd).1, (hds d hd).2, rfl⟩
  refine clash?_eq_none.mpr ⟨fun v hv heq => ?_, nofun, ?_⟩
  · obtain ⟨hname, hindex, hmodule⟩ := hviews v hv
    exact hindex ((kebab_eq_index_iff hname).mp (hmodule.symm.trans heq))
  · refine List.pairwise_of_forall_mem_list fun v hv w hw heq => ?_
    obtain ⟨hvname, _, hvmodule⟩ := hviews v hv
    obtain ⟨hwname, _, hwmodule⟩ := hviews w hw
    rw [hvmodule, hwmodule] at heq
    exact Naming.kebab_injOn hvname hwname heq

theorem exists_plan_of_conventional
    (hvs : ∀ v ∈ vs, ∃ d ∈ ds, Rendered.ofDeclaration r d = .ok v) (package : Option String) :
    ∃ p, plan r package vs = .ok p := by
  -- A plan puts the views in order first.
  have hclash : clash? [] (vs.mergeSort (·.name ≤ ·.name)) = none :=
    clash?_of_conventional hds fun v hv => hvs v ((List.mergeSort_perm _ _).mem_iff.mp hv)
  by_cases hs : r.isSingleFile = true
  · rw [plan, sourceFiles_of_single hs]
    exact ⟨_, rfl⟩
  · rw [plan, (sourceFiles_of_multiple (by simpa using hs)).mpr ⟨hclash, rfl⟩]
    exact ⟨_, rfl⟩

theorem ofDeclarations_of_conventional {failure : RenderFailure}
    (h : ofDeclarations r package ds = .error failure) :
    (ordered ds).mapM (Rendered.ofDeclaration r) = .error failure := by
  cases hrendered : (ordered ds).mapM (Rendered.ofDeclaration r) with
  | error e =>
    rw [ofDeclarations, hrendered] at h
    cases h
    rfl
  | ok vs =>
    have hvs : ∀ v ∈ vs, ∃ d ∈ ds, Rendered.ofDeclaration r d = .ok v := by
      intro v hv
      obtain ⟨d, hd, hview⟩ := exists_left_of_mem (forall₂_of_mapM hrendered) hv
      exact ⟨d, mem_of_mem_ordered hd, hview⟩
    obtain ⟨p, hp⟩ := exists_plan_of_conventional hds hvs package
    rw [ofDeclarations, hrendered] at h
    dsimp only [bind, Except.bind] at h
    rw [hp] at h
    cases h

end

/-- Conventional names have modules of their own, and only `Index` has that of the index. So no views
of declarations with other conventional names clash, and they can be planned. A plan for such
declarations fails only if one of them cannot be rendered, which happens for no built-in target. -/
theorem conventional_modules_apart :
    Set.InjOn Naming.kebab {name | isConventional name = true} ∧
    (∀ name, isConventional name = true → (Naming.kebab name = indexModule ↔ name = "Index")) ∧
    ∀ (r : Registry) (package : Option String) (ds : List Declaration),
      (∀ d ∈ ds, isConventional d.name = true ∧ d.name ≠ "Index") →
      (∀ vs, (∀ v ∈ vs, ∃ d ∈ ds, Rendered.ofDeclaration r d = .ok v) →
        clash? [] vs = none ∧ ∃ p, plan r package vs = .ok p) ∧
      (∀ failure, ofDeclarations r package ds = .error failure →
        (ordered ds).mapM (Rendered.ofDeclaration r) = .error failure) ∧
      (r.target ∈ Target.all → ∃ p, ofDeclarations r package ds = .ok p) := by
  refine ⟨Naming.kebab_injOn, fun name => kebab_eq_index_iff, fun r package ds hds => ?_⟩
  refine ⟨fun vs hvs => ?_, fun failure => ofDeclarations_of_conventional hds, fun htarget => ?_⟩
  · exact ⟨clash?_of_conventional hds hvs, exists_plan_of_conventional hds hvs package⟩
  cases hplan : ofDeclarations r package ds with
  | ok p => exact ⟨p, rfl⟩
  | error failure =>
    obtain ⟨vs, hvs⟩ : ∃ vs, (ordered ds).mapM (Rendered.ofDeclaration r) = .ok vs :=
      mapM_ok fun d _ => (exists_rendered (Target.isPlain_of_mem_all htarget) d).imp
        fun v hv => hv.1
    cases hvs.symm.trans (ofDeclarations_of_conventional hds hplan)

/-- Names that differ in letter case and underscores only. -/
def cased : List Declaration :=
  [.object "UserID" "" [] [], .object "UserId" "" [] [], .object "User_Id" "" [] [],
    .object "IndeX" "" [] []]

theorem cased_apart : (∀ d ∈ cased, isConventional d.name = true ∧ d.name ≠ "Index") ∧
    Target.ioTs ∈ Target.all ∧ ∃ p, ofDeclarations (.defaults .ioTs) none cased = .ok p := by
  have hnames : ∀ d ∈ cased, isConventional d.name = true ∧ d.name ≠ "Index" := by decide
  have htarget : Target.ioTs ∈ Target.all := List.mem_cons_self
  obtain ⟨_, _, hplans⟩ := conventional_modules_apart
  exact ⟨hnames, htarget, (hplans (.defaults .ioTs) none cased hnames).2.2 htarget⟩

end Layout
end SchemaCompiler
