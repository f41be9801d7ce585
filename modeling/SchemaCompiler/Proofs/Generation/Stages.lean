import SchemaCompiler.Proofs.Generation.Effects

/-!
The stages of a run: settings, plan, output folder, files. The tree is touched when the plan is made,
not before, and from then on a run fails by what it cannot write.
-/
namespace SchemaCompiler

/-- A failure to write, or to look up what is written. -/
def Failure.isOutput : Failure → Bool
  | .write _ | .file _ => true
  | _ => false

theorem FileError.isOutput_failure (cause : FileError) (path : Path)
    (report : FileError → WriteCause) : (cause.failure path report).isOutput = true := by
  cases cause with
  | _ => rfl

namespace Generation

open Activity

variable {r : Registry} {t : Target} {ds : List Declaration} {options : Options}
  {folder : Path} {files : List PlannedFile} {w w' : World}

/-- The settings of a run: those of the target with the configuration file on top. -/
def settings? (tree : FileTree) (t : Target) : Option Path → Except Failure Registry
  | none => .ok (Registry.defaults t).freeze
  | some path =>
    let loaded := (Registry.defaults t).load tree path
    loaded.outcome.map fun _ => loaded.registry.freeze

theorem on_registry (t : Target) (configFile : Option Path) (w : World) :
    ∃ w', (registry t configFile).on w = (settings? w.tree t configFile, w') ∧ w'.tree = w.tree := by
  cases configFile with
  | none => exact ⟨w, rfl, rfl⟩
  | some path =>
    refine ⟨{ w with log := w.log ++ ((Registry.defaults t).load w.tree path).log }, ?_, rfl⟩
    change (ofExcept id ((Registry.defaults t).load w.tree path).outcome >>= fun _ =>
      pure ((Registry.defaults t).load w.tree path).registry.freeze).on _ = _
    rw [settings?]
    cases ((Registry.defaults t).load w.tree path).outcome with
    | error e => rfl
    | ok found => rfl

/-- The settings of a run are for its target. -/
theorem target_of_settings? {tree : FileTree} {configFile : Option Path}
    (h : settings? tree t configFile = .ok r) : r.target = t := by
  obtain ⟨w', hon, _⟩ := on_registry t configFile ⟨tree, []⟩
  rw [h] at hon
  exact target_of_registry hon

/-- A run that goes through has settings and a plan, has made its folder, and has written or kept all
its files. -/
theorem run_emitted {o : Outcome} (h : (run t ds options).on w = (.ok o, w')) :
    ∃ r p entries w₁ w₂, settings? w.tree t options.configFile = .ok r ∧
      Layout.ofDeclarations r options.packageName ds = .ok p ∧
      w.tree.ensureFolders o.folder = (w₁.tree, .ok ()) ∧
      (writeAll o.folder p.files).on w₁ = (.ok entries, w₂) ∧ w₂.tree = w'.tree ∧
      o.folder = outputFolder r options ∧
      o.written = (entries.filter (·.2)).map (·.1) ∧
      o.skipped = (entries.filter (!·.2)).map (·.1) := by
  obtain ⟨r, w₀, hregistry, hemit⟩ := on_bind_eq_ok.mp h
  obtain ⟨w₀', hon, htree⟩ := on_registry t options.configFile w
  obtain ⟨hsettings, rfl⟩ := Prod.mk.inj (hregistry.symm.trans hon)
  obtain ⟨p, entries, w₁, w₂, hplan, hmade, hrest⟩ := emitted hemit
  exact ⟨r, p, entries, w₁, w₂, hsettings.symm, hplan, htree ▸ hmade, hrest⟩

theorem on_plan (r : Registry) (package : Option String) (ds : List Declaration) (w : World) :
    ∃ w', (plan r package ds).on w =
      ((Layout.ofDeclarations r package ds).mapError Failure.render, w') ∧ w'.tree = w.tree := by
  let warned : World := { w with log := w.log ++ Layout.duplicateWarnings [] ds }
  cases hplan : Layout.ofDeclarations r package ds with
  | error e =>
    refine ⟨warned, ?_, rfl⟩
    rw [plan, hplan]
    rfl
  | ok p =>
    refine ⟨{ warned with log := warned.log ++ [Layout.planned p] }, ?_, rfl⟩
    rw [plan, hplan]
    rfl

/-- All failures of an activity are about output. -/
def FailsByOutput {α : Type} (x : Activity α) : Prop :=
  ∀ w e, (x.on w).1 = .error e → e.isOutput = true

theorem FailsByOutput.bind {α β : Type} {x : Activity α} {f : α → Activity β}
    (hx : FailsByOutput x) (hf : ∀ a, FailsByOutput (f a)) : FailsByOutput (x >>= f) := by
  intro w e he
  rw [on_bind] at he
  rcases hon : x.on w with ⟨e' | a, w₁⟩
  · rw [hon] at he
    cases he
    exact hx w _ (by rw [hon])
  · rw [hon] at he
    exact hf a w₁ e he

theorem failsByOutput_pure {α : Type} (a : α) : FailsByOutput (pure a) := fun _ _ he => nomatch he

theorem failsByOutput_log (lines : List LogLine) : FailsByOutput (log lines) :=
  fun _ _ he => nomatch he

theorem failsByOutput_keeps (folder : Path) (file : PlannedFile) :
    FailsByOutput (keeps folder file) := by
  intro w e he
  rcases keeping folder file w with ⟨hon, _⟩ | ⟨hon, _⟩ | ⟨cause, hon, _⟩
  · rw [hon] at he
    cases he
  · rw [hon] at he
    cases he
  · rw [hon] at he
    cases he
    rfl

theorem failsByOutput_overwrite (folder : Path) (file : PlannedFile) :
    FailsByOutput (overwrite folder file) := by
  intro w e he
  rcases overwriting folder file w with ⟨_, hon, _⟩ | ⟨cause, _, _, hon⟩
  · rw [hon] at he
    cases he
  · rw [hon] at he
    cases he
    exact cause.isOutput_failure _ .file

theorem failsByOutput_write (folder : Path) (file : PlannedFile) :
    FailsByOutput (write folder file) := by
  refine (failsByOutput_keeps folder file).bind fun kept => ?_
  split
  · exact (failsByOutput_log _).bind fun _ => failsByOutput_pure _
  · exact (failsByOutput_overwrite folder file).bind fun _ => failsByOutput_pure _

theorem failsByOutput_writeAll (folder : Path) (files : List PlannedFile) :
    FailsByOutput (writeAll folder files) := by
  induction files with
  | nil => exact failsByOutput_pure _
  | cons file rest ih =>
    refine (failsByOutput_write folder file).bind fun _ => ?_
    exact ih.bind fun _ => failsByOutput_pure _

theorem failsByOutput_createFolder (folder : Path) : FailsByOutput (createFolder folder) := by
  intro w e he
  rw [on_createFolder] at he
  rcases hmade : w.tree.ensureFolders folder with ⟨made, result⟩
  rw [hmade] at he
  cases result with
  | ok _ => cases he
  | error cause =>
    cases he
    exact cause.isOutput_failure folder .folder

/-- A run under given settings leaves the tree as it is, or it has a plan and fails by output only. -/
theorem emit_cases (r : Registry) (ds : List Declaration) (options : Options) (w : World) :
    (∃ e w', (emit r ds options).on w = (.error e, w') ∧ w'.tree = w.tree) ∨
      ∃ p, Layout.ofDeclarations r options.packageName ds = .ok p ∧
        ∀ e, ((emit r ds options).on w).1 = .error e → e.isOutput = true := by
  obtain ⟨w', hon, htree⟩ := on_plan r options.packageName ds w
  rw [emit, on_bind, hon]
  cases Layout.ofDeclarations r options.packageName ds with
  | error e => exact .inl ⟨.render e, w', rfl, htree⟩
  | ok p =>
    refine .inr ⟨p, rfl, fun e he => ?_⟩
    refine FailsByOutput.bind (failsByOutput_createFolder _) (fun _ => ?_) w' e he
    refine (failsByOutput_writeAll _ _).bind fun _ => ?_
    exact (failsByOutput_log _).bind fun _ => failsByOutput_pure _

theorem run_cases (t : Target) (ds : List Declaration) (options : Options) (w : World) :
    (∃ e w', (run t ds options).on w = (.error e, w') ∧ w'.tree = w.tree) ∨
      ∃ r p, settings? w.tree t options.configFile = .ok r ∧
        Layout.ofDeclarations r options.packageName ds = .ok p ∧
        ∀ e, ((run t ds options).on w).1 = .error e → e.isOutput = true := by
  obtain ⟨w₁, hon, htree⟩ := on_registry t options.configFile w
  rw [run, on_bind, hon]
  cases hsettings : settings? w.tree t options.configFile with
  | error e => exact .inl ⟨e, w₁, rfl, htree⟩
  | ok r =>
    rcases emit_cases r ds options w₁ with ⟨e, w', hemit, hkept⟩ | ⟨p, hplan, hfails⟩
    · exact .inl ⟨e, w', hemit, hkept.trans htree⟩
    · exact .inr ⟨r, p, rfl, hplan, hfails⟩

end Generation
end SchemaCompiler
