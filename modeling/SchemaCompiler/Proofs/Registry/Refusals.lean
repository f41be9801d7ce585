import SchemaCompiler.Proofs.Registry.Layers

/-!
Calls that fail. A call that is refused before anything is laid over the registry leaves it alone. The
check of the name of a single file comes later, and what it refuses stays in the registry.
-/
namespace SchemaCompiler

/-- Whether a failure is about settings that a document has led to. -/
def Failure.isUnusable : Failure → Bool
  | .config ⟨_, .unusable _⟩ => true
  | _ => false

variable {tree : FileTree} {p : Path} {e : Failure}

theorem Source.parseConfig_error {path : Option String} {d : Document}
    (h : parseConfig path d = .error e) : e.isUnusable = false := by
  rw [parseConfig] at h
  split at h
  · cases h
  · cases h
    rfl

theorem Source.document_error {malformed : Failure} {unreadable : FileError → Failure}
    (hmalformed : malformed.isUnusable = false)
    (hunreadable : ∀ cause, (unreadable cause).isUnusable = false)
    (h : document tree p malformed unreadable = .error e) : e.isUnusable = false := by
  rw [document] at h
  split at h
  · cases h
    exact hunreadable _
  · split at h
    · cases h
      rfl
    · dsimp only at h
      split at h
      · cases h
      · cases h
        exact hmalformed
      · cases h
        rfl

/-- A configuration that cannot be read fails for another reason than its settings. -/
theorem Source.config_error (h : config tree p = .error e) : e.isUnusable = false := by
  rw [config] at h
  split at h
  · cases h
    rfl
  · cases h
  · cases hd : document tree p (.config ⟨some p.text, .malformed⟩)
      fun e => .config ⟨some p.text, .unreadable e⟩ with
    | error cause =>
      rw [hd] at h
      cases h
      exact document_error rfl (fun _ => rfl) hd
    | ok d =>
      rw [hd] at h
      change some <$> parseConfig (some p.text) d = .error e at h
      cases hparsed : parseConfig (some p.text) d with
      | error cause =>
        rw [hparsed] at h
        cases h
        exact parseConfig_error hparsed
      | ok parsed =>
        rw [hparsed] at h
        cases h

namespace Registry

variable {r : Registry} {d : Config.Document}

/-- What a document that is refused leaves behind. -/
structure Spoilt (r : Registry) (d : Config.Document) (r' : Registry) : Prop where
  isOpen : r.frozen = false
  layered : ∃ own : Option Config.Section,
    d.sections r.target.name = d.general :: own.toList ∧ Layered r d own r'
  isSingleFile : r'.isSingleFile = true
  extension : r'.output.singleFile.endsWith r.target.fileExtension = false

theorem singleFileCheck_error {cause : RegistryError} (h : r.singleFileCheck = .error cause) :
    cause = .singleFileExtension r.target.fileExtension r.output.singleFile ∧
      r.isSingleFile = true ∧ r.output.singleFile.endsWith r.target.fileExtension = false := by
  rw [singleFileCheck] at h
  split at h
  · next hcheck =>
    cases h
    simpa using hcheck
  · cases h

/-- A document is refused because the registry is frozen, and has no effect, or because of the settings
that it leads to, and stays. -/
theorem applyConfig_error {path : Option String} (h : (r.applyConfig path d).outcome = .error e) :
    (e.isUnusable = false ∧ (r.applyConfig path d).registry = r) ∨
      (e.isUnusable = true ∧ Spoilt r d (r.applyConfig path d).registry) := by
  cases hr : r.frozen with
  | true =>
    have hfrozen : r.apply d = ⟨r, [], .error (.frozen r.target.name)⟩ := by
      rw [apply, change, hr, if_pos rfl]
    rw [applyConfig, hfrozen] at h ⊢
    cases h
    exact .inl ⟨rfl, rfl⟩
  | false =>
    obtain ⟨own, hown⟩ : ∃ own : Option Config.Section,
        d.sections r.target.name = d.general :: own.toList := ⟨_, rfl⟩
    have hlayered := layered_overlayAll r d own
    rw [applyConfig, apply_open hr, hown] at h ⊢
    generalize (r.overlayAll (d.general :: own.toList)).1 = laid at h hlayered ⊢
    cases hcheck : laid.singleFileCheck with
    | ok _ =>
      rw [hcheck] at h
      cases h
    | error cause =>
      obtain ⟨hcause, hsingle, hname⟩ := singleFileCheck_error hcheck
      rw [hlayered.target] at hname
      rw [hcheck, hcause] at h
      cases h
      exact .inr ⟨rfl, hr, ⟨own, hown, hlayered⟩, hsingle, hname⟩

/-- The document that a call lays over a registry. -/
def Call.document? : Call → Option Config.Document
  | .apply _ d => some d
  | .load tree path =>
    match Source.config tree path with
    | .ok found => found
    | .error _ => none
  | _ => none

/-- A call that fails leaves the registry as it was, unless it fails because of the settings that its
document leads to: these stay, and make a single file without the extension of the target. A registry
is as open or frozen as it was in any case. -/
theorem failed_call_keeps (r : Registry) (c : Call) (h : (c.on r).outcome = .error e) :
    (c.on r).registry.frozen = r.frozen ∧
    (e.isUnusable = false → (c.on r).registry = r) ∧
    (e.isUnusable = true → ∃ d, c.document? = some d ∧ Spoilt r d (c.on r).registry) := by
  suffices hcases : (e.isUnusable = false ∧ (c.on r).registry = r) ∨
      (e.isUnusable = true ∧ ∃ d, c.document? = some d ∧ Spoilt r d (c.on r).registry) by
    rcases hcases with ⟨hother, hsame⟩ | ⟨hunusable, d, hd, hspoilt⟩
    · exact ⟨congrArg (·.frozen) hsame, fun _ => hsame, fun hu => by simp [hu] at hother⟩
    · obtain ⟨own, _, hlayered⟩ := hspoilt.layered
      exact ⟨hlayered.frozen, fun hu => by simp [hu] at hunusable, fun _ => ⟨d, hd, hspoilt⟩⟩
  cases hr : r.frozen with
  | true =>
    obtain ⟨hsame, hrefused⟩ := c.on_frozen hr
    rw [h, Call.refusal] at hrefused
    split at hrefused
    · cases hrefused
    · cases hrefused
      exact .inl ⟨rfl, hsame⟩
  | false =>
    cases c with
    | register format b =>
      simp [Call.on, register, change, hr] at h
    | apply path d =>
      rcases applyConfig_error h with hkept | ⟨hunusable, hspoilt⟩
      · exact .inl hkept
      · exact .inr ⟨hunusable, d, rfl, hspoilt⟩
    | load tree path =>
      rw [Call.on, load, hr, if_neg Bool.false_ne_true] at h ⊢
      rw [Call.document?]
      cases hread : Source.config tree path with
      | error cause =>
        rw [hread] at h
        cases h
        exact .inl ⟨Source.config_error hread, rfl⟩
      | ok found =>
        rw [hread] at h
        cases found with
        | none => cases h
        | some d =>
          dsimp only at h ⊢
          split at h
          · next cause hfailed =>
            rw [hfailed] at h
            cases h
            rcases applyConfig_error hfailed with hkept | ⟨hunusable, hspoilt⟩
            · exact .inl hkept
            · exact .inr ⟨hunusable, d, rfl, hspoilt⟩
          · next happlied =>
            rw [happlied] at h
            cases h
    | freeze => cases h

/-- A document that asks for a single file which is no module. -/
def scriptDocument : Config.Document :=
  ⟨⟨some ⟨none, some .single, some "schemas.js"⟩, none, .empty, none⟩, none, none⟩

theorem outcome_script (path : Option String) :
    ((defaults .ioTs).applyConfig path scriptDocument).outcome =
      .error (.config ⟨path, .unusable (.singleFileExtension ".ts" "schemas.js")⟩) := by
  have hcheck : ((defaults .ioTs).apply scriptDocument).outcome =
      .error (.singleFileExtension ".ts" "schemas.js") := by decide +kernel
  rw [applyConfig, hcheck]
  rfl

theorem script_call_keeps :
    ((Call.apply none scriptDocument).on (defaults .ioTs)).outcome =
      .error (.config ⟨none, .unusable (.singleFileExtension ".ts" "schemas.js")⟩) ∧
    ((Call.apply none scriptDocument).on (defaults .ioTs)).registry.frozen = false ∧
    (∃ d, (Call.apply none scriptDocument).document? = some d ∧
      Spoilt (defaults .ioTs) d ((Call.apply none scriptDocument).on (defaults .ioTs)).registry) ∧
    ((Call.apply none scriptDocument).on (defaults .ioTs).freeze).outcome =
      .error (.frozen "typescript") ∧
    ((Call.apply none scriptDocument).on (defaults .ioTs).freeze).registry =
      (defaults .ioTs).freeze := by
  have hlate : ((Call.apply none scriptDocument).on (defaults .ioTs)).outcome = _ :=
    outcome_script none
  have hearly : ((Call.apply none scriptDocument).on (defaults .ioTs).freeze).outcome =
      .error (.frozen "typescript") := rfl
  obtain ⟨hfrozen, _, hspoilt⟩ := failed_call_keeps _ _ hlate
  obtain ⟨_, hsame, _⟩ := failed_call_keeps _ _ hearly
  exact ⟨hlate, hfrozen, hspoilt rfl, hearly, hsame rfl⟩

/-- A document that is refused for the name of its single file has changed the registry. -/
theorem refused_script_stays :
    ((defaults .ioTs).applyConfig none scriptDocument).outcome =
      .error (.config ⟨none, .unusable (.singleFileExtension ".ts" "schemas.js")⟩) ∧
    ((defaults .ioTs).applyConfig none scriptDocument).registry.output ≠
      (defaults .ioTs).output := by
  refine ⟨outcome_script none, ?_⟩
  have hlaid : ((defaults .ioTs).applyConfig none scriptDocument).registry =
      ((defaults .ioTs).overlayAll (scriptDocument.sections "typescript")).1 :=
    registry_apply rfl scriptDocument
  rw [hlaid]
  decide

end Registry
end SchemaCompiler
