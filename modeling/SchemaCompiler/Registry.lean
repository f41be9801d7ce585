import SchemaCompiler.Config.Document
import SchemaCompiler.Declaration
import SchemaCompiler.Log
import SchemaCompiler.Target

/-!
A registry holds the settings of one run for one target: the bindings of formats, and what is
generated where. It starts with the defaults of the target, takes configuration documents on top,
and can be frozen, after which nothing changes it.
-/
namespace SchemaCompiler

structure OutputSettings where
  folder : String := "./generated"
  mode : Mode := .multiple
  singleFile : String := "schemas.ts"
deriving DecidableEq

structure GenerationSettings where
  /-- Whether to write a package manifest where there is none. -/
  manifest : Bool := true
  /-- Whether to write functions that check and narrow values. -/
  helpers : Bool := true
  /-- Whether to write variants of objects without required fields. -/
  partials : Bool := false
deriving DecidableEq

structure Registry where
  target : Target
  bindings : Table Binding
  output : OutputSettings
  generation : GenerationSettings
  packageName : String
  frozen : Bool

inductive RegistryError where
  | frozen (target : String)
  | singleFileExtension (extension name : String)
deriving DecidableEq

def RegistryError.message : RegistryError → String
  | .frozen target => s!"custom type registry for '{target}' is frozen"
  | .singleFileExtension extension name =>
    s!"singleFileName must end with '{extension}', got '{name}'"

namespace Registry

/-- The registry of a target before any configuration. -/
def defaults (t : Target) : Registry := ⟨t, t.bindings, {}, {}, t.packageName, false⟩

def freeze (r : Registry) : Registry := { r with frozen := true }

/-- The binding of a format. The empty format has none. -/
def get? (r : Registry) (format : String) : Option Binding :=
  if format == "" then none else r.bindings.get? format

/-- The formats that have a binding, sorted. -/
def formats (r : Registry) : List String := r.bindings.sorted.map (·.1)

def isSingleFile (r : Registry) : Bool := r.output.mode == .single

/-- The import lines for some formats: the one of the library and then the others, sorted. -/
def imports (r : Registry) (formats : List String) : List String :=
  let needed := formats.filterMap fun f => (r.get? f).map (·.importLine)
  let others := needed.filter fun line => line != "" && line != r.target.baseImport
  r.target.baseImport :: sortNames others

/-- Sets a binding; the log tells when one is replaced. -/
def bind (r : Registry) (format : String) (b : Binding) : Registry × List LogLine :=
  ({ r with bindings := r.bindings.insert format b },
    if r.bindings.contains format then
      [⟨.debug, s!"overriding mapping for format '{format}'"⟩]
    else [])

/-- Sets bindings one after the other. -/
def bindAll (r : Registry) : List (String × Binding) → Registry × List LogLine
  | [] => (r, [])
  | (format, b) :: rest =>
    let (r, log) := r.bind format b
    let (r, more) := r.bindAll rest
    (r, log ++ more)

theorem target_bindAll (r : Registry) (bindings : List (String × Binding)) :
    (r.bindAll bindings).1.target = r.target := by
  induction bindings generalizing r with
  | nil => rfl
  | cons binding rest ih => exact ih _

end Registry

def OutputSettings.overlay (o : OutputSettings) (c : Config.Output) : OutputSettings :=
  ⟨c.folder.getD o.folder, c.mode.getD o.mode, c.singleFile.getD o.singleFile⟩

def GenerationSettings.overlay (g : GenerationSettings) (c : Config.Generation) :
    GenerationSettings :=
  ⟨c.manifest.getD g.manifest, c.helpers.getD g.helpers, c.partials.getD g.partials⟩

namespace Registry

/-- The settings of a section replace those of the registry where the section has any. -/
def overlay (r : Registry) (s : Config.Section) : Registry × List LogLine :=
  { r with
    output := (s.output.map r.output.overlay).getD r.output
    generation := (s.generation.map r.generation.overlay).getD r.generation
    packageName := s.packageName.getD r.packageName }.bindAll s.bindings.pairs

def overlayAll (r : Registry) : List Config.Section → Registry × List LogLine
  | [] => (r, [])
  | s :: rest =>
    let (r, log) := r.overlay s
    let (r, more) := r.overlayAll rest
    (r, log ++ more)

theorem target_overlayAll (r : Registry) (sections : List Config.Section) :
    (r.overlayAll sections).1.target = r.target := by
  induction sections generalizing r with
  | nil => rfl
  | cons s rest ih => exact (ih _).trans (target_bindAll _ _)

/-- A step on a registry: the registry after it, what it logged, and how it went. A step that fails
keeps what it changed before. -/
structure Change where
  registry : Registry
  log : List LogLine
  outcome : Except RegistryError Unit

/-- Refuses a step on a frozen registry. -/
def change (r : Registry) (step : Registry → Change) : Change :=
  if r.frozen then ⟨r, [], .error (.frozen r.target.name)⟩ else step r

def register (r : Registry) (format : String) (b : Binding) : Change :=
  r.change fun r =>
    let (r, log) := r.bind format b
    ⟨r, log, .ok ()⟩

/-- Lays a document over the settings. A single file must have the extension of the target. -/
def apply (r : Registry) (d : Config.Document) : Change :=
  r.change fun r =>
    let (r, log) := r.overlayAll (d.sections r.target.name)
    let extension := r.target.fileExtension
    let name := r.output.singleFile
    if r.isSingleFile && !name.endsWith extension then
      ⟨r, log, .error (.singleFileExtension extension name)⟩
    else ⟨r, log, .ok ()⟩

/-- No document changes the target. -/
theorem target_apply (r : Registry) (d : Config.Document) :
    (r.apply d).registry.target = r.target := by
  rw [apply, change]
  split
  · rfl
  · have h := target_overlayAll r (d.sections r.target.name)
    dsimp only
    split
    · exact h
    · exact h

end Registry
end SchemaCompiler
