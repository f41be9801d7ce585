import SchemaCompiler.Proofs.Config.Fields
import SchemaCompiler.Source

/-!
The models of a configuration and where they are read. When two documents differ in one mapping only,
and a model is read from it, then what is decoded from them varies as that mapping does, with the way to
the mapping in front of the problems.
-/
namespace SchemaCompiler.Config

open Decoded

variable {h h' : Heap} {es es' : Entries} {own own' : List Problem} {v v' : Value}
  {path : List Scalar}

theorem faithful_mode : Faithful mode := by
  intro h h' v w hvw
  rcases hvw.cases with ⟨s, rfl, rfl⟩ | ⟨a, b, rfl, rfl, _⟩ | ⟨a, b, rfl, rfl⟩ | ⟨a, b, rfl, rfl⟩ |
    ⟨a, b, rfl, rfl⟩
  all_goals rfl

/-- The kinds of mappings with known fields. -/
inductive Model where
  | document
  | target
  | output
  | generation
  | binding
deriving DecidableEq

namespace Model

def Result : Model → Type
  | document => Document
  | target => Section
  | output => Output
  | generation => Generation
  | binding => Binding

def decoder : (m : Model) → Decoder m.Result
  | document => Config.document
  | target => targetSection
  | output => Config.output
  | generation => Config.generation
  | binding => Config.binding

def sectionReaders : List FieldReader :=
  [.optional (orNull Config.output) none Spelling.output,
    .optional (orNull Config.generation) none Spelling.generation,
    .optional (table Config.binding) .empty Spelling.bindings,
    .optional (orNull nonEmptyText) none Spelling.packageName]

/-- The fields of a model. -/
def fields : Model → List FieldReader
  | document => sectionReaders ++
    [.optional (orNull targetSection) none Spelling.typescript,
      .optional (orNull targetSection) none Spelling.typescriptZod]
  | target => sectionReaders
  | output =>
    [.optional (orNull nonEmptyText) none Spelling.folder, .optional (orNull mode) none Spelling.mode,
      .optional (orNull nonEmptyText) none Spelling.singleFile]
  | generation =>
    [.optional (orNull truth) none Spelling.manifest, .optional (orNull truth) none Spelling.helpers,
      .optional (orNull truth) none Spelling.partials]
  | binding =>
    [.required nonEmptyText Spelling.validator, .optional text "string" Spelling.staticType,
      .optional text "" Spelling.importLine]

/-- The spellings of the fields of a model. -/
def spellings (m : Model) : List (List String) := m.fields.map (·.spellings)

theorem distinct_fields (m : Model) : ∀ f ∈ m.fields, ∀ g ∈ m.fields, g.spellings ≠ f.spellings →
    ∀ s ∈ f.spellings, s ∉ g.spellings := by
  cases m <;> decide

theorem reads_section : Reads sectionReaders sectionOf := by
  have houtput := (reads_optional (orNull Config.output) none Spelling.output).map Section.mk
  have hgeneration := reads_optional (orNull Config.generation) none Spelling.generation
  have hbindings := reads_optional (table Config.binding) .empty Spelling.bindings
  have hpackage := reads_optional (orNull nonEmptyText) none Spelling.packageName
  exact ((houtput.seq hgeneration (by decide)).seq hbindings (by decide)).seq hpackage (by decide)

/-- A model is decoded field by field. -/
theorem exists_reads (m : Model) : ∃ p, m.decoder = record m.spellings p ∧ Reads m.fields p := by
  cases m with
  | document =>
    have hgeneral := reads_section.map Document.mk
    have htypescript := reads_optional (orNull targetSection) none Spelling.typescript
    have hzod := reads_optional (orNull targetSection) none Spelling.typescriptZod
    exact ⟨_, rfl, (hgeneral.seq htypescript (by decide)).seq hzod (by decide)⟩
  | target => exact ⟨_, rfl, reads_section⟩
  | output =>
    have hfolder := (reads_optional (orNull nonEmptyText) none Spelling.folder).map Output.mk
    have hmode := reads_optional (orNull mode) none Spelling.mode
    have hsingle := reads_optional (orNull nonEmptyText) none Spelling.singleFile
    exact ⟨_, rfl, (hfolder.seq hmode (by decide)).seq hsingle (by decide)⟩
  | generation =>
    have hmanifest := (reads_optional (orNull truth) none Spelling.manifest).map Generation.mk
    have hhelpers := reads_optional (orNull truth) none Spelling.helpers
    have hpartials := reads_optional (orNull truth) none Spelling.partials
    exact ⟨_, rfl, (hmanifest.seq hhelpers (by decide)).seq hpartials (by decide)⟩
  | binding =>
    have hvalidator := (reads_required nonEmptyText Spelling.validator).map Binding.mk
    have htype := reads_optional text "string" Spelling.staticType
    have himport := reads_optional text "" Spelling.importLine
    exact ⟨_, rfl, (hvalidator.seq htype (by decide)).seq himport (by decide)⟩

theorem faithful_of_fields {m : Model} (hfields : ∀ f ∈ m.fields, Faithful f.decoder) :
    Faithful m.decoder := by
  obtain ⟨p, hp, hreads⟩ := m.exists_reads
  rw [hp]
  exact faithful_record hreads hfields

theorem faithful_output : ∀ f ∈ output.fields, Faithful f.decoder := by
  simp only [fields, List.forall_mem_cons]
  exact ⟨faithful_nonEmptyText.orNull, faithful_mode.orNull, faithful_nonEmptyText.orNull, nofun⟩

theorem faithful_generation : ∀ f ∈ generation.fields, Faithful f.decoder := by
  simp only [fields, List.forall_mem_cons]
  exact ⟨faithful_truth.orNull, faithful_truth.orNull, faithful_truth.orNull, nofun⟩

theorem faithful_binding : ∀ f ∈ binding.fields, Faithful f.decoder := by
  simp only [fields, List.forall_mem_cons]
  exact ⟨faithful_nonEmptyText, faithful_text, faithful_text, nofun⟩

theorem faithful_target : ∀ f ∈ target.fields, Faithful f.decoder := by
  simp only [fields, sectionReaders, List.forall_mem_cons]
  exact ⟨(faithful_of_fields faithful_output).orNull, (faithful_of_fields faithful_generation).orNull,
    (faithful_of_fields faithful_binding).table, faithful_nonEmptyText.orNull, nofun⟩

theorem faithful_fields (m : Model) : ∀ f ∈ m.fields, Faithful f.decoder := by
  cases m with
  | document =>
    have htarget : Faithful (orNull targetSection) := (faithful_of_fields faithful_target).orNull
    rw [fields, List.forall_mem_append]
    refine ⟨faithful_target, ?_⟩
    simp only [List.forall_mem_cons]
    exact ⟨htarget, htarget, nofun⟩
  | target => exact faithful_target
  | output => exact faithful_output
  | generation => exact faithful_generation
  | binding => exact faithful_binding

/-- The fields of a model that are models. -/
def models : Model → List (List String × Model)
  | document => [(Spelling.output, output), (Spelling.generation, generation),
      (Spelling.typescript, target), (Spelling.typescriptZod, target)]
  | target => [(Spelling.output, output), (Spelling.generation, generation)]
  | _ => []

/-- Whether a model has a mapping from formats to bindings. -/
def hasBindings : Model → Bool
  | document | target => true
  | _ => false

theorem varies_orNull {α : Type} {d : Decoder α} {a a' : Address}
    (hvaries : Varies own own' (d h (.map a)) (d h' (.map a'))) :
    Varies own own' (orNull d h (.map a)) (orNull d h' (.map a')) := hvaries.map some

/-- A field that is a model varies as the model does. -/
theorem exists_field {m n : Model} {spellings : List String} (hn : (spellings, n) ∈ m.models) :
    ∃ f ∈ m.fields, f.spellings = spellings ∧ ∀ h h' a a' own own',
      Varies own own' (n.decoder h (.map a)) (n.decoder h' (.map a')) →
      Varies own own' (f.decoder h (.map a)) (f.decoder h' (.map a')) := by
  cases m with
  | document =>
    simp only [models, List.mem_cons, Prod.mk.injEq, List.not_mem_nil, or_false] at hn
    rcases hn with ⟨rfl, rfl⟩ | ⟨rfl, rfl⟩ | ⟨rfl, rfl⟩ | ⟨rfl, rfl⟩
    · exact ⟨_, .head _, rfl, fun h h' a a' own own' => varies_orNull⟩
    · exact ⟨_, .tail _ (.head _), rfl, fun h h' a a' own own' => varies_orNull⟩
    · exact ⟨_, .tail _ (.tail _ (.tail _ (.tail _ (.head _)))), rfl,
        fun h h' a a' own own' => varies_orNull⟩
    · exact ⟨_, .tail _ (.tail _ (.tail _ (.tail _ (.tail _ (.head _))))), rfl,
        fun h h' a a' own own' => varies_orNull⟩
  | target =>
    simp only [models, List.mem_cons, Prod.mk.injEq, List.not_mem_nil, or_false] at hn
    rcases hn with ⟨rfl, rfl⟩ | ⟨rfl, rfl⟩
    · exact ⟨_, .head _, rfl, fun h h' a a' own own' => varies_orNull⟩
    · exact ⟨_, .tail _ (.head _), rfl, fun h h' a a' own own' => varies_orNull⟩
  | output => cases hn
  | generation => cases hn
  | binding => cases hn

/-- The bindings of a model vary as their entries do. -/
theorem exists_bindings {m : Model} (hm : m.hasBindings = true) :
    ∃ f ∈ m.fields, f.spellings = Spelling.bindings ∧ ∀ h h' a a' own own',
      Varies own own' (namedEntries Config.binding h (h.entries a))
        (namedEntries Config.binding h' (h'.entries a')) →
      Varies own own' (f.decoder h (.map a)) (f.decoder h' (.map a')) := by
  have htable : ∀ h h' a a' own own',
      Varies own own' (namedEntries Config.binding h (h.entries a))
        (namedEntries Config.binding h' (h'.entries a')) →
      Varies own own' (table Config.binding h (.map a)) (table Config.binding h' (.map a')) := by
    intro h h' a a' own own' hvaries
    rw [table, table]
    dsimp only
    rw [map_eq, map_eq]
    exact hvaries.map _
  cases m with
  | document => exact ⟨_, .tail _ (.tail _ (.head _)), rfl, htable⟩
  | target => exact ⟨_, .tail _ (.tail _ (.head _)), rfl, htable⟩
  | output => cases hm
  | generation => cases hm
  | binding => cases hm

end Model

/-- A problem seen from where some steps start. -/
def Problem.under (steps : List Step) (p : Problem) : Problem := ⟨steps ++ p.location, p.cause⟩

/-- The location of what stands at a path of keys. -/
def locationOf (path : List Scalar) : List Step := path.map Step.ofKey

/-- Where a value that is decoded as one model has another one: at the end of a path of keys, through
fields that are models, under the spellings that are taken, and through the bindings. -/
inductive ReadsAt (h : Heap) : Model → Value → List Scalar → Model → Prop
  | here {m : Model} {a : Address} : ReadsAt h m (.map a) [] m
  | field {m n k : Model} {a : Address} {spellings : List String} {name : String} {v : Value}
      {path : List Scalar} (hn : (spellings, n) ∈ m.models)
      (hname : spelled? (h.entries a) spellings = some (name, v)) (hv : ReadsAt h n v path k) :
      ReadsAt h m (.map a) (.str name :: path) k
  | binding {m : Model} {a b c : Address} {name : String} {key : Scalar}
      (hm : m.hasBindings = true)
      (hname : spelled? (h.entries a) Spelling.bindings = some (name, .map b))
      (hkey : (key, .map c) ∈ h.entries b) :
      ReadsAt h m (.map a) [.str name, key] .binding

/-- Two values that differ in the entries of the mapping at a path of keys, and in nothing else. -/
inductive Changed (h h' : Heap) (change : Entries → Entries → Prop) :
    List Scalar → Value → Value → Prop
  | here {a a' : Address} (hchange : change (h.entries a) (h'.entries a')) :
      Changed h h' change [] (.map a) (.map a')
  | inside {a a' : Address} {key : Scalar} {before before' after after' : Entries} {v v' : Value}
      {path : List Scalar} (hes : h.entries a = before ++ (key, v) :: after)
      (hes' : h'.entries a' = before' ++ (key, v') :: after') (hfirst : key ∉ before.keys)
      (hbefore : Entries.Alike h h' before before') (hafter : Entries.Alike h h' after after')
      (hv : Changed h h' change path v v') :
      Changed h h' change (key :: path) (.map a) (.map a')

section

variable {before before' after after' : Entries}

/-- A mapping with free keys in which one value is decoded differently. -/
theorem varies_namedEntries {α : Type} {d : Decoder α} (hd : Faithful d) (key : Scalar)
    (hbefore : Entries.Alike h h' before before') (hafter : Entries.Alike h h' after after')
    (hvaries : Varies own own' (d h v) (d h' v')) :
    Varies (own.map (·.within (.ofKey key))) (own'.map (·.within (.ofKey key)))
      (namedEntries d h (before ++ (key, v) :: after))
      (namedEntries d h' (before' ++ (key, v') :: after')) := by
  induction hbefore with
  | nil =>
    have hkey : text h (.scalar key) = text h' (.scalar key) :=
      faithful_text h h' _ _ (alike_scalar h h' key)
    rw [List.nil_append, List.nil_append, namedEntries, namedEntries, namedEntries_alike hd hafter,
      namedEntry, namedEntry, hkey]
    exact (((hvaries.seq_right _).within (.ofKey key)).map List.cons).seq_left _
  | @cons e e' _ _ hee' _ ih =>
    obtain ⟨k, u⟩ := e
    obtain ⟨k', u'⟩ := e'
    obtain ⟨rfl, hu⟩ : k = k' ∧ _ := hee'
    have hkey : text h (.scalar k) = text h' (.scalar k) :=
      faithful_text h h' _ _ (alike_scalar h h' k)
    rw [List.cons_append, List.cons_append, namedEntries, namedEntries, namedEntry, namedEntry,
      hd h h' u u' hu, hkey]
    exact ih.seq_right _

variable {a a' : Address} {name : String}

/-- A model in which the value of one field is decoded differently. -/
theorem varies_below (m : Model) {f : FieldReader} (hf : f ∈ m.fields)
    (hes : h.entries a = before ++ (.str name, v) :: after)
    (hes' : h'.entries a' = before' ++ (.str name, v') :: after') (hfirst : .str name ∉ before.keys)
    (hbefore : Entries.Alike h h' before before') (hafter : Entries.Alike h h' after after')
    (hname : (spelled? (h.entries a) f.spellings).map (·.1) = some name)
    (hvaries : Varies own own' (f.decoder h v) (f.decoder h' v')) :
    Varies (own.map (·.within (.name name))) (own'.map (·.within (.name name)))
      (m.decoder h (.map a)) (m.decoder h' (.map a')) := by
  obtain ⟨p, hp, hreads⟩ := m.exists_reads
  have hkeys : (h.entries a).keys = (h'.entries a').keys := by
    rw [hes, hes', Entries.keys_append, Entries.keys_append, Entries.keys_cons, Entries.keys_cons,
      hbefore.keys_eq, hafter.keys_eq]
  have hfind : (h.entries a).find? name = some v := by
    rw [hes]
    exact Entries.find?_first hfirst v after
  have hfind' : (h'.entries a').find? name = some v' := by
    rw [hes']
    exact Entries.find?_first (hbefore.keys_eq ▸ hfirst) v' after'
  have hspelled := spelled?_of_name hname hfind
  have hspelled' := spelled?_of_name ((spelledName_congr hkeys _).symm.trans hname) hfind'
  have hmem : name ∈ f.spellings := by
    obtain ⟨before, after, heq, _⟩ := spelled?_eq_some.mp hspelled
    rw [heq]
    exact List.mem_append_right _ List.mem_cons_self
  rw [hp]
  refine varies_record hreads hf (fun g hg hne => ?_) (leftovers_congr hkeys _) ?_
  · -- No other field has this spelling, so the others do not see the entry.
    refine FieldReader.read_alike (m.faithful_fields g hg) ?_
    have hother := m.distinct_fields f hf g hg hne name hmem
    rw [hes, hes', spelled?_insert hother, spelled?_insert hother]
    exact readAlike_spelled? (hbefore.append hafter) _
  · rw [FieldReader.read_some hspelled, FieldReader.read_some hspelled']
    exact hvaries.within _

end

/-- A changed value is a mapping, before and after. -/
theorem Changed.exists_map {change : Entries → Entries → Prop}
    (hchanged : Changed h h' change path v v') : ∃ a a', v = .map a ∧ v' = .map a' := by
  cases hchanged with
  | here => exact ⟨_, _, rfl, rfl⟩
  | inside => exact ⟨_, _, rfl, rfl⟩

/-- The value of a field is the one that a change on its way goes into. -/
theorem eq_of_spelled? {before after : Entries} {name : String} {spellings : List String} {u : Value}
    (hname : spelled? es spellings = some (name, u)) (hes : es = before ++ (.str name, v) :: after)
    (hfirst : .str name ∉ before.keys) : u = v := by
  obtain ⟨_, _, _, _, hu⟩ := spelled?_eq_some.mp hname
  rw [hes, Entries.find?_first hfirst] at hu
  exact (Option.some.inj hu).symm

/-- What is decoded from values that differ in the mapping of a model varies as the model does. -/
theorem exists_place {change : Entries → Entries → Prop} {m k : Model}
    (hreads : ReadsAt h m v path k) (hchanged : Changed h h' change path v v') :
    ∃ a a', change (h.entries a) (h'.entries a') ∧ ∀ own own',
      Varies own own' (k.decoder h (.map a)) (k.decoder h' (.map a')) →
      Varies (own.map (·.under (locationOf path))) (own'.map (·.under (locationOf path)))
        (m.decoder h v) (m.decoder h' v') := by
  induction hreads generalizing v' with
  | here =>
    cases hchanged with
    | here hchange =>
      refine ⟨_, _, hchange, fun own own' hvaries => ?_⟩
      have hsame (ps : List Problem) : ps.map (·.under (locationOf [])) = ps := List.map_id ps
      rwa [hsame, hsame]
  | @field m n k a spellings name u path hn hname hu ih =>
    cases hchanged with
    | inside hes hes' hfirst hbefore hafter hv =>
      obtain rfl := eq_of_spelled? hname hes hfirst
      obtain ⟨b, b', hchange, hplace⟩ := ih hv
      obtain ⟨f, hf, rfl, hfield⟩ := Model.exists_field hn
      obtain ⟨c, c', rfl, rfl⟩ := hv.exists_map
      refine ⟨b, b', hchange, fun own own' hvaries => ?_⟩
      have hwhole := varies_below m hf hes hes' hfirst hbefore hafter (by rw [hname]; rfl)
        (hfield _ _ _ _ _ _ (hplace own own' hvaries))
      rwa [List.map_map, List.map_map] at hwhole
  | @binding m a b c name key hm hname hkey =>
    cases hchanged with
    | inside hes hes' hfirst hbefore hafter hv =>
      obtain rfl := eq_of_spelled? hname hes hfirst
      cases hv with
      | @inside _ b' _ _ _ _ _ _ _ _ hbs hbs' _ hbefore₂ hafter₂ hv =>
        cases hv with
        | @here c c' hchange =>
          obtain ⟨f, hf, hspellings, hfield⟩ := Model.exists_bindings hm
          refine ⟨c, c', hchange, fun own own' hvaries => ?_⟩
          have hbinding : Faithful Config.binding :=
            Model.faithful_of_fields Model.faithful_binding
          have hentries := varies_namedEntries hbinding key hbefore₂ hafter₂ hvaries
          rw [← hbs, ← hbs'] at hentries
          have hwhole := varies_below m hf hes hes' hfirst hbefore hafter
            (by rw [hspellings, hname]; rfl) (hfield _ _ _ _ _ _ hentries)
          rwa [List.map_map, List.map_map] at hwhole

/-- A mapping is parsed as a document is decoded. -/
theorem parseConfig_map (file : Option String) (h : Heap) (a : Address) :
    Source.parseConfig file ⟨h, .map a⟩ = match (document h (.map a)).toExcept with
      | .ok d => .ok d
      | .error ps => .error (.config ⟨file, .invalid ps⟩) := by
  rw [Source.parseConfig]
  rfl

theorem parseConfig_of_found {file : Option String} {a : Address}
    (hfound : (document h (.map a)).found ≠ []) : Source.parseConfig file ⟨h, .map a⟩ =
      .error (.config ⟨file, .invalid (document h (.map a)).found⟩) := by
  rw [parseConfig_map, toExcept_eq_error.mpr ⟨rfl, hfound⟩]

theorem parseConfig_of_value {file : Option String} {a : Address} {d : Document}
    (hvalue : (document h (.map a)).value? = some d) :
    Source.parseConfig file ⟨h, .map a⟩ = .ok d := by
  rw [parseConfig_map, toExcept_eq_ok.mpr hvalue]

/-- A document with one binding, which is below a number, and with an output that is no mapping. -/
def bindingHeap (es : Entries) : Heap := ⟨#[
  .entries [(.str "output", .scalar (.int 5)), (.str "typescript", .map 1)],
  .entries [(.str "customTypes", .map 2)],
  .entries [(.int 1, .map 3)],
  .entries es]⟩

def bindingPath : List Scalar := [.str "typescript", .str "customTypes", .int 1]

theorem readsAt_bindingHeap (es : Entries) :
    ReadsAt (bindingHeap es) .document (.map 0) bindingPath .binding :=
  .field (.tail _ (.tail _ (.head _))) rfl (.binding rfl rfl (.head _))

theorem changed_bindingHeap {change : Entries → Entries → Prop} (hchange : change es es') :
    Changed (bindingHeap es) (bindingHeap es') change bindingPath (.map 0) (.map 0) := by
  have houtput : Entries.Alike (bindingHeap es) (bindingHeap es')
      [(.str "output", .scalar (.int 5))] [(.str "output", .scalar (.int 5))] :=
    .cons ⟨rfl, alike_scalar _ _ _⟩ .nil
  have hbinding : Changed (bindingHeap es) (bindingHeap es') change [] (.map 3) (.map 3) :=
    .here hchange
  refine .inside rfl rfl (by decide) houtput .nil ?_
  refine .inside rfl rfl List.not_mem_nil .nil .nil ?_
  exact .inside rfl rfl List.not_mem_nil .nil .nil hbinding

end SchemaCompiler.Config
