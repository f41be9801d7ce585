import SchemaCompiler.Generation

/-!
Calls on a registry in any order. As long as it is not frozen, the binding of a format is the one that
was set last, whichever way it came. A frozen registry refuses every call and stays as it is.
-/
namespace SchemaCompiler.Registry

variable {r : Registry} {format : String} {pairs more : List (String × Binding)}
  {sections : List Config.Section}

/-- The last binding of a format in a list. -/
def last? (pairs : List (String × Binding)) (format : String) : Option Binding :=
  pairs.reverse.lookup format

theorem last?_append : last? (pairs ++ more) format =
    (last? more format).or (last? pairs format) := by
  rw [last?, List.reverse_append, List.lookup_append]
  rfl

theorem last?_singleton (name : String) (b : Binding) :
    last? [(name, b)] format = if format = name then some b else none := by
  by_cases h : format = name
  · subst h
    simp [last?]
  · rw [if_neg h]
    simp [last?, List.lookup_cons, beq_false_of_ne h]

theorem get?_bindAll : (r.bindAll pairs).1.bindings.get? format =
    (last? pairs format).or (r.bindings.get? format) := by
  induction pairs generalizing r with
  | nil => rfl
  | cons binding rest ih =>
    obtain ⟨name, b⟩ := binding
    have hrest := @ih (r.bind name b).1
    have hbind : (r.bind name b).1.bindings.get? format =
        (last? [(name, b)] format).or (r.bindings.get? format) := by
      rw [last?_singleton]
      refine (Table.get?_insert _ _ _ _).trans ?_
      split <;> rfl
    rw [hbind, ← Option.or_assoc, ← last?_append] at hrest
    exact hrest

theorem frozen_bindAll : (r.bindAll pairs).1.frozen = r.frozen := by
  induction pairs generalizing r with
  | nil => rfl
  | cons binding rest ih => exact ih

/-- The bindings of sections, in the order in which they are laid over a registry. -/
def bindingsOf (sections : List Config.Section) : List (String × Binding) :=
  sections.flatMap (·.bindings.pairs)

theorem get?_overlayAll : (r.overlayAll sections).1.bindings.get? format =
    (last? (bindingsOf sections) format).or (r.bindings.get? format) := by
  induction sections generalizing r with
  | nil => rfl
  | cons s rest ih =>
    have hrest := @ih (r.overlay s).1
    rw [overlay, get?_bindAll, ← Option.or_assoc, ← last?_append] at hrest
    exact hrest

theorem frozen_overlayAll : (r.overlayAll sections).1.frozen = r.frozen := by
  induction sections generalizing r with
  | nil => rfl
  | cons s rest ih => exact ih.trans frozen_bindAll

/-- The bindings that a document sets for a target, in order: first those for every target, then those
of the section for the target alone. -/
def bindingsFor (target : String) (d : Config.Document) : List (String × Binding) :=
  let own :=
    if target = "typescript" then d.typescript
    else if target = "typescript-zod" then d.typescriptZod
    else none
  d.general.bindings.pairs ++ own.elim [] (·.bindings.pairs)

theorem bindingsOf_sections (d : Config.Document) (target : String) :
    bindingsOf (d.sections target) = bindingsFor target d := by
  rw [Config.Document.sections, bindingsOf, bindingsFor, List.flatMap_cons]
  simp only [beq_iff_eq]
  generalize (if target = "typescript" then d.typescript
    else if target = "typescript-zod" then d.typescriptZod else none) = own
  cases own with
  | none => rfl
  | some s => rw [Option.toList_some, List.flatMap_singleton, Option.elim_some]

/-- A document is laid over a registry also when it is refused in the end. -/
theorem registry_apply (hr : r.frozen = false) (d : Config.Document) :
    (r.apply d).registry = (r.overlayAll (d.sections r.target.name)).1 := by
  rw [apply, change, hr, if_neg Bool.false_ne_true]
  dsimp only
  split <;> rfl

/-- A way to change a registry, or to end its changes. -/
inductive Call where
  | register (format : String) (b : Binding)
  | apply (path : Option String) (d : Config.Document)
  | load (tree : FileTree) (path : Path)
  | freeze

namespace Call

/-- What a call comes to. -/
def on (r : Registry) : Call → Loaded
  | .register format b =>
    let change := r.register format b
    ⟨change.registry, change.log,
      match change.outcome with
      | .ok () => .ok true
      | .error e => .error (e.failure none)⟩
  | .apply path d => r.applyConfig path d
  | .load tree path => r.load tree path
  | .freeze => ⟨r.freeze, [], .ok true⟩

def isFreeze : Call → Bool
  | .freeze => true
  | _ => false

theorem eq_freeze {c : Call} (h : c.isFreeze = true) : c = .freeze := by
  cases c with
  | freeze => rfl
  | _ => cases h

/-- The bindings that a call sets for a target, in order. A file that is missing or no document has
none. -/
def bindings (target : String) : Call → List (String × Binding)
  | .register format b => [(format, b)]
  | .apply _ d => bindingsFor target d
  | .load tree path =>
    match Source.config tree path with
    | .ok (some d) => bindingsFor target d
    | _ => []
  | .freeze => []

/-- What a call on a frozen registry comes to. -/
def refusal (target : String) (c : Call) : Except Failure Bool :=
  if c.isFreeze then .ok true else .error (.frozen target)

/-- A frozen registry refuses a call before it has any effect. -/
theorem on_frozen (hr : r.frozen = true) (c : Call) :
    (c.on r).registry = r ∧ (c.on r).outcome = c.refusal r.target.name := by
  cases c with
  | register format b =>
    simp [on, Registry.register, change, hr, refusal, isFreeze, RegistryError.failure]
  | apply path d =>
    simp [on, applyConfig, Registry.apply, change, hr, refusal, isFreeze, RegistryError.failure]
  | load tree path => simp [on, Registry.load, hr, refusal, isFreeze]
  | freeze =>
    obtain ⟨t, bindings, output, generation, packageName, frozen⟩ := r
    cases hr
    exact ⟨rfl, rfl⟩

/-- A call on a registry that can be changed sets its bindings and leaves the registry as open as it
was. -/
theorem on_open (hr : r.frozen = false) (c : Call) (hc : c.isFreeze = false) :
    (c.on r).registry.frozen = false ∧ (c.on r).registry.target = r.target ∧
      ∀ format, (c.on r).registry.bindings.get? format =
        (last? (c.bindings r.target.name) format).or (r.bindings.get? format) := by
  have hlaid (d : Config.Document) : (r.apply d).registry.frozen = false ∧
      (r.apply d).registry.target = r.target ∧
      ∀ format, (r.apply d).registry.bindings.get? format =
        (last? (bindingsFor r.target.name d) format).or (r.bindings.get? format) := by
    rw [registry_apply hr, ← bindingsOf_sections]
    exact ⟨frozen_overlayAll.trans hr, target_overlayAll _ _, fun _ => get?_overlayAll⟩
  cases c with
  | register format b =>
    have hbound : ((Call.register format b).on r).registry = (r.bind format b).1 := by
      simp [on, Registry.register, change, hr]
    rw [hbound]
    refine ⟨hr, rfl, fun name => ?_⟩
    have hbind := @get?_bindAll r name [(format, b)]
    exact hbind
  | apply path d => exact hlaid d
  | load tree path =>
    rw [on, Registry.load, hr, if_neg Bool.false_ne_true, bindings]
    cases Source.config tree path with
    | error e => exact ⟨hr, rfl, fun _ => rfl⟩
    | ok found =>
      cases found with
      | none => exact ⟨hr, rfl, fun _ => rfl⟩
      | some d =>
        dsimp only
        split <;> exact hlaid d
  | freeze => cases hc

end Call

/-- The registry after some calls. -/
def after (r : Registry) (calls : List Call) : Registry :=
  calls.foldl (fun r c => (c.on r).registry) r

/-- What calls come to, one after the other. -/
def outcomes (r : Registry) : List Call → List (Except Failure Bool)
  | [] => []
  | c :: rest => (c.on r).outcome :: (c.on r).registry.outcomes rest

/-- The bindings that are set by calls until one of them freezes the registry. -/
def registrations (t : Target) (calls : List Call) : List (String × Binding) :=
  (calls.takeWhile (!·.isFreeze)).flatMap (Call.bindings t.name)

theorem after_append (calls later : List Call) :
    r.after (calls ++ later) = (r.after calls).after later := List.foldl_append

theorem outcomes_append (calls later : List Call) :
    r.outcomes (calls ++ later) = r.outcomes calls ++ (r.after calls).outcomes later := by
  induction calls generalizing r with
  | nil => rfl
  | cons c rest ih =>
    rw [List.cons_append, outcomes, ih]
    rfl

theorem after_frozen (hr : r.frozen = true) (calls : List Call) : r.after calls = r := by
  induction calls with
  | nil => rfl
  | cons c rest ih =>
    have hc := (c.on_frozen hr).1
    exact (congrArg (·.after rest) hc).trans ih

theorem outcomes_frozen (hr : r.frozen = true) (calls : List Call) :
    r.outcomes calls = calls.map (Call.refusal r.target.name) := by
  induction calls with
  | nil => rfl
  | cons c rest ih =>
    obtain ⟨hsame, hrefused⟩ := c.on_frozen hr
    rw [outcomes, hsame, hrefused, ih, List.map_cons]

theorem target_after (calls : List Call) : (r.after calls).target = r.target := by
  induction calls generalizing r with
  | nil => rfl
  | cons c rest ih =>
    refine (ih (r := (c.on r).registry)).trans ?_
    cases hr : r.frozen with
    | true => rw [(c.on_frozen hr).1]
    | false =>
      cases hc : c.isFreeze with
      | false => exact (c.on_open hr hc).2.1
      | true =>
        rw [c.eq_freeze hc]
        rfl

/-- The binding of a format is the last one that was set before a freeze, or the one from before. -/
theorem get?_after (hr : r.frozen = false) (calls : List Call) :
    (r.after calls).bindings.get? format =
      (last? (registrations r.target calls) format).or (r.bindings.get? format) := by
  induction calls generalizing r with
  | nil => rfl
  | cons c rest ih =>
    cases hc : c.isFreeze with
    | true =>
      obtain rfl := c.eq_freeze hc
      have hafter : r.after (.freeze :: rest) = r.freeze := after_frozen rfl rest
      rw [hafter]
      rfl
    | false =>
      obtain ⟨hopen, htarget, hbindings⟩ := c.on_open hr hc
      have hregistrations : registrations r.target (c :: rest) =
          c.bindings r.target.name ++ registrations r.target rest := by
        rw [registrations, List.takeWhile_cons, hc]
        rfl
      have hrest := ih hopen
      rw [htarget, hbindings, ← Option.or_assoc, ← last?_append, ← hregistrations] at hrest
      exact hrest

/-- Two registries that nothing that can be asked of them tells apart. -/
structure AnswersLike (r r' : Registry) : Prop where
  get? : ∀ format, r'.get? format = r.get? format
  formats : r'.formats = r.formats
  imports : ∀ formats, r'.imports formats = r.imports formats
  output : r'.output = r.output
  generation : r'.generation = r.generation
  packageName : r'.packageName = r.packageName

theorem answersLike_freeze (r : Registry) : AnswersLike r r.freeze :=
  ⟨fun _ => rfl, rfl, fun _ => rfl, rfl, rfl, rfl⟩

/-- After any calls on the registry of a target, a format has the binding that was set last before the
first freeze, directly or by a section of a document, or else the one of the target, and the empty
format has none. What is called after a freeze is refused, and the registry answers as it did then. -/
theorem calls_settled (t : Target) (calls : List Call) :
    (∀ format, ((defaults t).after calls).get? format =
      if format = "" then none
      else (last? (registrations t calls) format).or (t.bindings.get? format)) ∧
    ∀ later,
      (defaults t).outcomes (calls ++ .freeze :: later) =
        (defaults t).outcomes calls ++ .ok true :: later.map (Call.refusal t.name) ∧
      AnswersLike ((defaults t).after calls) ((defaults t).after (calls ++ .freeze :: later)) := by
  refine ⟨fun format => ?_, fun later => ⟨?_, ?_⟩⟩
  · rw [get?, get?_after rfl]
    by_cases hempty : format = ""
    · rw [if_pos (beq_iff_eq.mpr hempty), if_pos hempty]
    · rw [if_neg (mt beq_iff_eq.mp hempty), if_neg hempty]
      rfl
  · have hfrozen := outcomes_frozen (r := ((defaults t).after calls).freeze) rfl later
    have htarget : ((defaults t).after calls).freeze.target = t := target_after calls
    rw [htarget] at hfrozen
    rw [outcomes_append, outcomes]
    exact congrArg (fun answers => _ ++ .ok true :: answers) hfrozen
  · have hfrozen : (defaults t).after (calls ++ .freeze :: later) =
        ((defaults t).after calls).freeze := by
      rw [after_append]
      exact after_frozen rfl later
    rw [hfrozen]
    exact answersLike_freeze _

end SchemaCompiler.Registry
