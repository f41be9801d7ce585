import Mathlib.Data.List.Induction
import SchemaCompiler.Proofs.Registry.Calls

/-!
Layers of a configuration. A document is laid over a registry in two layers, the general section and
then the one for the target alone. Each setting is the last one that was given, and to lay the same
document over a registry once more changes nothing.
-/
namespace SchemaCompiler

namespace Table

variable {α : Type} {t : Table α} {name : String} {pairs more : List (String × α)}

/-- Sets the values of some pairs one after the other. -/
def insertAll (t : Table α) (pairs : List (String × α)) : Table α :=
  pairs.foldl (fun t pair => t.insert pair.1 pair.2) t

theorem insertAll_append : t.insertAll (pairs ++ more) = (t.insertAll pairs).insertAll more :=
  List.foldl_append

theorem mem_names_insertAll :
    name ∈ (t.insertAll pairs).names ↔ name ∈ t.names ∨ name ∈ pairs.map (·.1) := by
  induction pairs generalizing t with
  | nil => exact (or_iff_left List.not_mem_nil).symm
  | cons pair rest ih =>
    refine (ih (t := t.insert pair.1 pair.2)).trans ?_
    rw [mem_names_insert, List.map_cons, List.mem_cons, or_assoc, or_left_comm]

/-- What is set at a name in the end hides what was set there before. -/
theorem insert_insertAll (a b : α) (h : ∀ pair ∈ pairs, pair.1 ∈ t.names) :
    ((t.insert name a).insertAll pairs).insert name b = (t.insertAll pairs).insert name b := by
  induction pairs generalizing t with
  | nil => exact insert_insert t name a b
  | cons pair rest ih =>
    obtain ⟨other, c⟩ := pair
    obtain ⟨hother, hrest⟩ := List.forall_mem_cons.mp h
    by_cases hsame : other = name
    · subst hsame
      exact congrArg (fun t => (insertAll t rest).insert other b) (insert_insert t other a c)
    · have hlater := ih (t := t.insert other c) fun pair hpair =>
        mem_names_insert.mpr (.inr (hrest pair hpair))
      rw [insert_comm hsame c a hother] at hlater
      exact hlater

/-- Pairs that are set a second time are all there already. -/
theorem insertAll_insertAll (t : Table α) (pairs : List (String × α)) :
    (t.insertAll pairs).insertAll pairs = t.insertAll pairs := by
  induction pairs using List.reverseRecOn with
  | nil => rfl
  | append_singleton front pair ih =>
    have hlast (t : Table α) :
        t.insertAll (front ++ [pair]) = (t.insertAll front).insert pair.1 pair.2 :=
      insertAll_append
    have hthere : ∀ p ∈ front, p.1 ∈ (t.insertAll front).names := fun p hp =>
      mem_names_insertAll.mpr (.inr (List.mem_map_of_mem hp))
    rw [hlast, hlast, insert_insertAll _ _ hthere, ih]

end Table

namespace Config.Document

variable {d : Document} {t : Target} {own : Option Section}

/-- The targets that come with the library, each with the section of a document for it alone. -/
def ownSections (d : Document) : List (Target × Option Section) :=
  [(.ioTs, d.typescript), (.zod, d.typescriptZod)]

/-- What a document gives for a setting: its section for the target alone comes before the general
one. -/
def given {α : Type} (d : Document) (own : Option Section) (setting : Section → Option α) :
    Option α :=
  (own.bind setting).or (setting d.general)

theorem sections_of_own (h : (t, own) ∈ d.ownSections) :
    d.sections t.name = d.general :: own.toList := by
  rcases List.mem_cons.mp h with h | h
  · cases h
    rfl
  · cases List.mem_singleton.mp h
    rfl

end Config.Document

namespace Registry

variable {r r' : Registry} {d : Config.Document} {own : Option Config.Section}

theorem bindAll_eq (r : Registry) (pairs : List (String × Binding)) :
    (r.bindAll pairs).1 = { r with bindings := r.bindings.insertAll pairs } := by
  induction pairs generalizing r with
  | nil => rfl
  | cons binding rest ih => exact ih _

theorem overlay_eq (r : Registry) (s : Config.Section) : (r.overlay s).1 =
    { r with
      output := (s.output.map r.output.overlay).getD r.output
      generation := (s.generation.map r.generation.overlay).getD r.generation
      packageName := s.packageName.getD r.packageName
      bindings := r.bindings.insertAll s.bindings.pairs } :=
  bindAll_eq _ _

theorem bindings_overlayAll (sections : List Config.Section) :
    (r.overlayAll sections).1.bindings = r.bindings.insertAll (bindingsOf sections) := by
  induction sections generalizing r with
  | nil => rfl
  | cons s rest ih =>
    refine (ih (r := (r.overlay s).1)).trans ?_
    rw [overlay_eq, ← Table.insertAll_append]
    rfl

/-- A setting that a section replaces where it has one is replaced by what the document gives. -/
theorem overlayAll_setting {α : Type} (get : Registry → α) (setting : Config.Section → Option α)
    (hstep : ∀ r s, get (overlay r s).1 = (setting s).getD (get r)) (r : Registry)
    (d : Config.Document) (own : Option Config.Section) :
    get (r.overlayAll (d.general :: own.toList)).1 = (d.given own setting).getD (get r) := by
  cases own with
  | none => exact hstep r d.general
  | some s =>
    have hgeneral := hstep r d.general
    have hown := hstep (r.overlay d.general).1 s
    rw [hgeneral, ← Option.getD_or] at hown
    exact hown

/-- A registry after a document was laid over it: each setting, and the binding of each format, is
the one that the document gives, or else the one from before. -/
structure Layered (r : Registry) (d : Config.Document) (own : Option Config.Section)
    (r' : Registry) : Prop where
  folder : r'.output.folder = (d.given own (·.output.bind (·.folder))).getD r.output.folder
  mode : r'.output.mode = (d.given own (·.output.bind (·.mode))).getD r.output.mode
  singleFile :
    r'.output.singleFile = (d.given own (·.output.bind (·.singleFile))).getD r.output.singleFile
  manifest : r'.generation.manifest =
    (d.given own (·.generation.bind (·.manifest))).getD r.generation.manifest
  helpers : r'.generation.helpers =
    (d.given own (·.generation.bind (·.helpers))).getD r.generation.helpers
  partials : r'.generation.partials =
    (d.given own (·.generation.bind (·.partials))).getD r.generation.partials
  packageName : r'.packageName = (d.given own (·.packageName)).getD r.packageName
  bindings : ∀ format, r'.bindings.get? format =
    (d.given own (last? ·.bindings.pairs format)).or (r.bindings.get? format)
  target : r'.target = r.target
  frozen : r'.frozen = r.frozen

theorem layered_overlayAll (r : Registry) (d : Config.Document) (own : Option Config.Section) :
    Layered r d own (r.overlayAll (d.general :: own.toList)).1 where
  folder := overlayAll_setting (·.output.folder) (·.output.bind (·.folder))
    (fun r s => by rw [overlay_eq]; cases s.output <;> rfl) r d own
  mode := overlayAll_setting (·.output.mode) (·.output.bind (·.mode))
    (fun r s => by rw [overlay_eq]; cases s.output <;> rfl) r d own
  singleFile := overlayAll_setting (·.output.singleFile) (·.output.bind (·.singleFile))
    (fun r s => by rw [overlay_eq]; cases s.output <;> rfl) r d own
  manifest := overlayAll_setting (·.generation.manifest) (·.generation.bind (·.manifest))
    (fun r s => by rw [overlay_eq]; cases s.generation <;> rfl) r d own
  helpers := overlayAll_setting (·.generation.helpers) (·.generation.bind (·.helpers))
    (fun r s => by rw [overlay_eq]; cases s.generation <;> rfl) r d own
  partials := overlayAll_setting (·.generation.partials) (·.generation.bind (·.partials))
    (fun r s => by rw [overlay_eq]; cases s.generation <;> rfl) r d own
  packageName := overlayAll_setting (·.packageName) (·.packageName)
    (fun r s => by rw [overlay_eq]) r d own
  bindings := fun format => by
    rw [get?_overlayAll]
    congr 1
    cases own with
    | none => exact congrArg (last? · format) (List.append_nil _)
    | some s =>
      have hboth : bindingsOf (d.general :: (some s).toList) =
          d.general.bindings.pairs ++ s.bindings.pairs :=
        congrArg (d.general.bindings.pairs ++ ·) (List.append_nil _)
      rw [hboth, last?_append]
      rfl
  target := target_overlayAll _ _
  frozen := frozen_overlayAll

/-- The settings of a document are in place once it was laid over a registry. -/
theorem overlayAll_again (r : Registry) (d : Config.Document) (own : Option Config.Section) :
    ((r.overlayAll (d.general :: own.toList)).1.overlayAll (d.general :: own.toList)).1 =
      (r.overlayAll (d.general :: own.toList)).1 := by
  have hfirst := layered_overlayAll r d own
  have hagain := layered_overlayAll (r.overlayAll (d.general :: own.toList)).1 d own
  have hbindings : ((r.overlayAll (d.general :: own.toList)).1.overlayAll
      (d.general :: own.toList)).1.bindings = (r.overlayAll (d.general :: own.toList)).1.bindings := by
    rw [bindings_overlayAll, bindings_overlayAll, Table.insertAll_insertAll]
  generalize (r.overlayAll (d.general :: own.toList)).1 = r₁ at hfirst hagain hbindings ⊢
  generalize (r₁.overlayAll (d.general :: own.toList)).1 = r₂ at hagain hbindings ⊢
  -- What the document gives counts both times, and what it leaves open is as it was.
  have hsame {α : Type} (x : Option α) {a b c : α} (hb : b = x.getD a) (hc : c = x.getD b) :
      c = b := by
    subst hb
    rw [hc]
    cases x <;> rfl
  obtain ⟨t₁, bindings₁, ⟨folder₁, mode₁, single₁⟩, ⟨manifest₁, helpers₁, partials₁⟩, name₁, f₁⟩ := r₁
  obtain ⟨t₂, bindings₂, ⟨folder₂, mode₂, single₂⟩, ⟨manifest₂, helpers₂, partials₂⟩, name₂, f₂⟩ := r₂
  obtain rfl : bindings₂ = bindings₁ := hbindings
  obtain rfl : t₂ = t₁ := hagain.target
  obtain rfl : f₂ = f₁ := hagain.frozen
  obtain rfl : folder₂ = folder₁ := hsame _ hfirst.folder hagain.folder
  obtain rfl : mode₂ = mode₁ := hsame _ hfirst.mode hagain.mode
  obtain rfl : single₂ = single₁ := hsame _ hfirst.singleFile hagain.singleFile
  obtain rfl : manifest₂ = manifest₁ := hsame _ hfirst.manifest hagain.manifest
  obtain rfl : helpers₂ = helpers₁ := hsame _ hfirst.helpers hagain.helpers
  obtain rfl : partials₂ = partials₁ := hsame _ hfirst.partials hagain.partials
  obtain rfl : name₂ = name₁ := hsame _ hfirst.packageName hagain.packageName
  rfl

/-- The check on the settings that a document leads to. -/
def singleFileCheck (r : Registry) : Except RegistryError Unit :=
  if r.isSingleFile && !r.output.singleFile.endsWith r.target.fileExtension then
    .error (.singleFileExtension r.target.fileExtension r.output.singleFile)
  else .ok ()

/-- What a document comes to on a registry that can be changed. -/
theorem apply_open (hr : r.frozen = false) (d : Config.Document) :
    r.apply d = ⟨(r.overlayAll (d.sections r.target.name)).1,
      (r.overlayAll (d.sections r.target.name)).2,
      (r.overlayAll (d.sections r.target.name)).1.singleFileCheck⟩ := by
  rw [apply, change, hr, if_neg Bool.false_ne_true, singleFileCheck]
  dsimp only
  split <;> rfl

theorem outcome_applyConfig {path : Option String} :
    (r.applyConfig path d).outcome = .ok true ↔ (r.apply d).outcome = .ok () := by
  rw [applyConfig]
  cases (r.apply d).outcome with
  | error e =>
    constructor
    · intro h
      cases h
    · intro h
      cases h
  | ok _ => exact ⟨fun _ => rfl, fun _ => rfl⟩

/-- Documents with the same sections for a target come to the same. -/
theorem applyConfig_congr (hr : r.frozen = false) {d' : Config.Document} {path : Option String}
    (h : d'.sections r.target.name = d.sections r.target.name) :
    r.applyConfig path d' = r.applyConfig path d := by
  have hsame : r.apply d' = r.apply d := by rw [apply_open hr, apply_open hr, h]
  rw [applyConfig, applyConfig, hsame]

/-- A document that is taken sets what it gives, its section for the target before the general one, and
leaves the rest; to take it once more changes nothing. The sections for other targets do not count,
neither for the settings nor for whether the document is taken. -/
theorem document_layered (hr : r.frozen = false) (hown : (r.target, own) ∈ d.ownSections)
    (path : Option String) :
    ((r.applyConfig path d).outcome = .ok true →
      Layered r d own (r.applyConfig path d).registry ∧
      ∀ path', ((r.applyConfig path d).registry.applyConfig path' d).outcome = .ok true ∧
        ((r.applyConfig path d).registry.applyConfig path' d).registry =
          (r.applyConfig path d).registry) ∧
    ∀ d' : Config.Document, d'.general = d.general → (r.target, own) ∈ d'.ownSections →
      r.applyConfig path d' = r.applyConfig path d := by
  have hsections := Config.Document.sections_of_own hown
  constructor
  · intro htaken
    have hlaid : (r.applyConfig path d).registry =
        (r.overlayAll (d.general :: own.toList)).1 := by
      rw [← hsections]
      exact registry_apply hr d
    have hlayered := layered_overlayAll r d own
    rw [← hlaid] at hlayered
    refine ⟨hlayered, fun path' => ?_⟩
    have hopen : (r.applyConfig path d).registry.frozen = false := hlayered.frozen.trans hr
    have hagain : ((r.applyConfig path d).registry.applyConfig path' d).registry =
        (r.applyConfig path d).registry := by
      refine (registry_apply hopen d).trans ?_
      rw [hlayered.target, hsections, hlaid, overlayAll_again]
    refine ⟨outcome_applyConfig.mpr ?_, hagain⟩
    have hcheck := outcome_applyConfig.mp htaken
    rw [apply_open hr, hsections, ← hlaid] at hcheck
    rw [apply_open hopen, hlayered.target, hsections, hlaid, overlayAll_again, ← hlaid]
    exact hcheck
  · intro d' hgeneral hown'
    refine applyConfig_congr hr ?_
    rw [Config.Document.sections_of_own hown', hgeneral, hsections]

/-- A document with settings for all targets and for both of the targets alone. -/
def brandedDocument : Config.Document where
  general := ⟨some ⟨some "./out", some .multiple, none⟩, some ⟨some true, none, some false⟩,
    .ofList [("uuid", ⟨"Shared", "string", ""⟩), ("hex", ⟨"Hex", "string", ""⟩)], some "@acme/all"⟩
  typescript := some ⟨some ⟨none, some .single, some "api.ts"⟩, some ⟨some false, none, none⟩,
    .ofList [("uuid", ⟨"UUID", "UUID", ""⟩)], none⟩
  typescriptZod := some ⟨none, some ⟨none, some false, none⟩, .empty, some "@acme/zod"⟩

theorem branded_layered :
    (defaults .ioTs).frozen = false ∧
    ((defaults .ioTs).target, brandedDocument.typescript) ∈ brandedDocument.ownSections ∧
    ((defaults .ioTs).applyConfig none brandedDocument).outcome = .ok true ∧
    ((defaults .ioTs).applyConfig none brandedDocument).registry.output =
      ⟨"./out", .single, "api.ts"⟩ ∧
    ((defaults .ioTs).applyConfig none brandedDocument).registry.generation =
      ⟨false, true, false⟩ ∧
    ((defaults .ioTs).applyConfig none brandedDocument).registry.bindings.get? "uuid" =
      some ⟨"UUID", "UUID", ""⟩ ∧
    (((defaults .ioTs).applyConfig none brandedDocument).registry.applyConfig none
      brandedDocument).registry =
        ((defaults .ioTs).applyConfig none brandedDocument).registry ∧
    (defaults .ioTs).applyConfig none { brandedDocument with typescriptZod := none } =
      (defaults .ioTs).applyConfig none brandedDocument := by
  have hown : ((defaults .ioTs).target, brandedDocument.typescript) ∈
      brandedDocument.ownSections := List.mem_cons_self
  have htaken : ((defaults .ioTs).applyConfig none brandedDocument).outcome = .ok true := by
    refine outcome_applyConfig.mpr ?_
    decide +kernel
  obtain ⟨hlayered, hothers⟩ := document_layered rfl hown none
  obtain ⟨hset, hagain⟩ := hlayered htaken
  have hlaid := registry_apply (r := defaults .ioTs) rfl brandedDocument
  exact ⟨rfl, hown, htaken, congrArg (·.output) hlaid, congrArg (·.generation) hlaid,
    hset.bindings "uuid", (hagain none).2, hothers _ rfl List.mem_cons_self⟩

end Registry
end SchemaCompiler
