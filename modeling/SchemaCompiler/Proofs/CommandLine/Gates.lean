import SchemaCompiler.Proofs.CommandLine.Sessions
import SchemaCompiler.Proofs.Generation.Stages
import SchemaCompiler.Proofs.Lowering.Traced

/-!
The gates before generation. A run that changes the file tree has found its target, settings and
schemas, has declarations that no diagnostic speaks against, and has planned all files.
-/
namespace SchemaCompiler

theorem Report.blocks_eq_false {r : Report} {strict : Bool} : r.blocks strict = false ↔
    (∀ d ∈ r.diagnostics, d.severity ≠ .error) ∧
      (strict = true → ∀ d ∈ r.diagnostics, d.severity ≠ .warning) := by
  have herrors : r.isValid = true ↔ ∀ d ∈ r.diagnostics, d.severity ≠ .error := by
    simp [isValid, errors, List.filter_eq_nil_iff]
  have hwarnings : r.warnings.isEmpty = true ↔ ∀ d ∈ r.diagnostics, d.severity ≠ .warning := by
    simp [warnings, List.filter_eq_nil_iff]
  rw [← herrors, ← hwarnings, blocks]
  cases r.isValid <;> cases strict <;> simp

namespace CommandLine

open Run

variable {o : GenerateOptions} {b : Batch} {s s' : Session} {tree : FileTree} {t : Target}
  {found : List Diagnostic}

/-- All that a run reports about a batch: what was found while lowering, and what the checks find. -/
def Batch.report (b : Batch) (found : List Diagnostic) : Report := ⟨found⟩ ++ lint Check.all b.declarations

/-- The documents of a run have been read, and nothing speaks against generating its batch. -/
structure Admitted (tree : FileTree) (o : GenerateOptions) (b : Batch) (found : List Diagnostic) :
    Prop where
  target : Target.find? o.target = some b.target
  config : Source.findConfig tree o.config (some o.schemas) = .ok b.config
  lowered : ∃ h a, Source.schemas tree o.schemas = .ok (h, a) ∧
    Lowering.schemas h Lowering.defaultLimit (h.entries a) = ⟨.ok b.declarations, found⟩
  nonempty : b.declarations ≠ []
  errors : ∀ d ∈ (b.report found).diagnostics, d.severity ≠ .error
  warnings : o.strict = true → ∀ d ∈ (b.report found).diagnostics, d.severity ≠ .warning

theorem findTarget_ok {name : String} (h : (findTarget name).on s = (.ok t, s')) :
    Target.find? name = some t := by
  rw [findTarget] at h
  split at h
  · next hfound =>
    cases h
    exact hfound
  · cases h

theorem keeps_findTarget (name : String) : Keeps (findTarget name) := by
  rw [findTarget]
  split
  · exact keeps_pure _
  · exact keeps_fail _

theorem ofExcept_ok {α ε : Type} {g : ε → Failure} {result : Except ε α} {a : α}
    (h : (Run.ofExcept g result).on s = (.ok a, s')) : result = .ok a ∧ s' = s := by
  cases result with
  | error e => cases h
  | ok a' =>
    cases h
    exact ⟨rfl, rfl⟩

theorem configFile_ok {config : Option Path} (h : (configFile o).on s = (.ok config, s')) :
    Source.findConfig s.world.tree o.config (some o.schemas) = .ok config := by
  rw [configFile, on_tree_bind] at h
  obtain ⟨found, s₁, hfound, h⟩ := on_bind_eq_ok.mp h
  obtain ⟨hfound, rfl⟩ := ofExcept_ok hfound
  cases found with
  | none =>
    cases h
    exact hfound
  | some p =>
    obtain ⟨_, _, _, h⟩ := on_bind_eq_ok.mp h
    cases h
    exact hfound

theorem keeps_configFile (o : GenerateOptions) : Keeps (configFile o) := by
  refine keeps_tree.bind fun tree => (keeps_ofExcept _ _).bind fun config => ?_
  cases config with
  | none => exact keeps_pure _
  | some p => exact (keeps_activity (Activity.respects_log _)).bind fun _ => keeps_pure _

theorem declarations_ok {path : Path} {ds : List Declaration} {found : List Diagnostic}
    (h : (declarations path).on s = (.ok (ds, found), s')) :
    ∃ heap a, Source.schemas s.world.tree path = .ok (heap, a) ∧
      Lowering.schemas heap Lowering.defaultLimit (heap.entries a) = ⟨.ok ds, found⟩ := by
  rw [declarations, on_tree_bind] at h
  obtain ⟨⟨heap, a⟩, s₁, hread, hlower⟩ := on_bind_eq_ok.mp h
  obtain ⟨hschemas, rfl⟩ := ofExcept_ok hread
  obtain ⟨ds', s₂, houtcome, hlog⟩ := on_bind_eq_ok.mp hlower
  obtain ⟨hds, rfl⟩ := ofExcept_ok houtcome
  obtain ⟨_, _, _, hreturn⟩ := on_bind_eq_ok.mp hlog
  cases hreturn
  exact ⟨heap, a, hschemas, Traced.eq_ok_of_outcome hds⟩

theorem keeps_declarations (path : Path) : Keeps (declarations path) := by
  refine keeps_tree.bind fun tree => (keeps_ofExcept _ _).bind fun _ => ?_
  refine (keeps_ofExcept _ _).bind fun _ => ?_
  exact (keeps_activity (Activity.respects_log _)).bind fun _ => keeps_pure _

theorem keeps_showReport (format : Format) (schemas : Path) (r : Report) :
    Keeps (showReport format schemas r) := by
  cases format with
  | text => exact keeps_printAll _ _
  | grid => exact keeps_print _ _

theorem requireSchemas_ok {ds : List Declaration}
    (h : (requireSchemas o ds).on s = (.ok (), s')) : ds ≠ [] := by
  rintro rfl
  obtain ⟨_, _, _, hexit⟩ := on_bind_eq_ok.mp h
  cases hexit

theorem keeps_requireSchemas (o : GenerateOptions) (ds : List Declaration) :
    Keeps (requireSchemas o ds) := by
  rw [requireSchemas]
  split
  · exact (keeps_say _ _).bind fun _ => keeps_exit 1
  · exact keeps_pure _

theorem keeps_showFound (o : GenerateOptions) (r : Report) : Keeps (showFound o r) := by
  rw [showFound]
  split
  · exact keeps_showReport _ _ _
  · exact keeps_pure _

theorem requireClear_ok {r : Report} (h : (requireClear o r).on s = (.ok (), s')) :
    r.blocks o.strict = false := by
  rw [requireClear] at h
  split at h
  · cases h
  · next hopen => simpa using hopen

theorem keeps_requireClear (o : GenerateOptions) (r : Report) : Keeps (requireClear o r) := by
  rw [requireClear]
  split
  · exact keeps_fail _
  · exact keeps_pure _

theorem prepare_ok (h : (prepare o).on s = (.ok b, s')) :
    ∃ found, Admitted s.world.tree o b found := by
  obtain ⟨t, s₁, ht, h⟩ := on_bind_eq_ok.mp h
  obtain ⟨config, s₂, hconfig, h⟩ := on_bind_eq_ok.mp h
  obtain ⟨⟨ds, found⟩, s₃, hds, h⟩ := on_bind_eq_ok.mp h
  have htree₁ : s₁.world.tree = s.world.tree := by
    have hkept := keeps_findTarget o.target s
    rwa [ht] at hkept
  have htree₂ : s₂.world.tree = s.world.tree := by
    have hkept := keeps_configFile o s₁
    rw [hconfig] at hkept
    exact hkept.trans htree₁
  have hconfig := configFile_ok hconfig
  rw [htree₁] at hconfig
  obtain ⟨heap, a, hschemas, hlowered⟩ := declarations_ok hds
  rw [htree₂] at hschemas
  dsimp only at h
  obtain ⟨_, s₄, hnonempty, h⟩ := on_bind_eq_ok.mp h
  obtain ⟨_, s₅, _, h⟩ := on_bind_eq_ok.mp h
  obtain ⟨_, s₆, hclear, h⟩ := on_bind_eq_ok.mp h
  obtain ⟨_, s₇, _, h⟩ := on_bind_eq_ok.mp h
  cases h
  obtain ⟨herrors, hwarnings⟩ := Report.blocks_eq_false.mp (requireClear_ok hclear)
  exact ⟨found, findTarget_ok ht, hconfig, ⟨heap, a, hschemas, hlowered⟩, requireSchemas_ok hnonempty,
    herrors, hwarnings⟩

theorem keeps_prepare (o : GenerateOptions) : Keeps (prepare o) := by
  refine (keeps_findTarget _).bind fun t => (keeps_configFile o).bind fun config => ?_
  refine (keeps_declarations _).bind fun batch => ?_
  refine (keeps_requireSchemas _ _).bind fun _ => (keeps_showFound _ _).bind fun _ => ?_
  refine (keeps_requireClear _ _).bind fun _ => ?_
  exact (keeps_say _ _).bind fun _ => keeps_pure _

def Batch.options (b : Batch) (o : GenerateOptions) : Generation.Options :=
  ⟨o.folder, b.config, o.package⟩

/-- The generation that a batch is for. -/
def Batch.generation (b : Batch) (o : GenerateOptions) : Activity Generation.Outcome :=
  Generation.run b.target b.declarations (b.options o)

/-- Where generation fails, so does the run. Otherwise it shows what was done, and does not touch the
tree any more. -/
theorem on_produce (o : GenerateOptions) (b : Batch) (s : Session) :
    ((produce o b).on s).2.world.tree = ((b.generation o).on s.world).2.tree ∧
      ∀ e, ((produce o b).on s).1 = .error (.failed e) →
        ((b.generation o).on s.world).1 = .error e := by
  change ((activity (b.generation o) >>= _).on s).2.world.tree = _ ∧
    ∀ e, ((activity (b.generation o) >>= _).on s).1 = _ → _
  rw [on_bind, on_activity]
  rcases (b.generation o).on s.world with ⟨e | done, w⟩
  · refine ⟨rfl, fun e' he => ?_⟩
    cases he
    rfl
  · have hkeeps := (keeps_print .out (outcomeGrid b.target done)).bind fun _ => keeps_say .out
      s!"\n[bold green]✓ Generated code in {done.folder.text}[/bold green]\n"
    have hnever := (neverFails_print .out (outcomeGrid b.target done)).bind fun _ => neverFails_say .out
      s!"\n[bold green]✓ Generated code in {done.folder.text}[/bold green]\n"
    exact ⟨hkeeps _, fun e he => absurd he (hnever _ e)⟩

end CommandLine
end SchemaCompiler
