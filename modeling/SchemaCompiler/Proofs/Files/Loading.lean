import SchemaCompiler.Proofs.Files.Refusals
import SchemaCompiler.Proofs.Text.Utf8
import SchemaCompiler.Proofs.Yaml.Faults
import SchemaCompiler.Source

/-!
How loading fails. A file of schemas that cannot be used is reported as such, and so is a configuration.
Three failures are not: a path that is too long to be looked up, a content that is not UTF-8, and a
document at fault, with a scalar that its value cannot be read from.
-/
namespace SchemaCompiler.Source

variable {t : FileTree} {p : Path} {content : ByteArray} {text : String} {malformed e : Failure}
  {unreadable : FileError → Failure} {cause : FileError}

/-- A failure to load a file that does not say so, when files of its kind are read at all. -/
inductive Stray (accepted : Prop) (t : FileTree) (p : Path) : Failure → Prop
  | path (hlong : t.locate p = .error (.refused .nameTooLong p.text)) :
      Stray accepted t p (.file (.refused .nameTooLong p.text))
  | bytes (content : ByteArray) (fault : Text.Utf8Fault) (haccepted : accepted)
      (hread : t.read p = .ok content) (hfault : Text.utf8Fault? content.toList = some fault)
      (hbytes : ∀ text : String, content ≠ text.toUTF8) : Stray accepted t p (.encoding fault)
  | scalar (text : String) (f : Yaml.Fault) (haccepted : accepted)
      (hread : t.read p = .ok text.toUTF8)
      (hfault : Yaml.read (.ofList (lineFeeds text.toList)) = .error (.fault f))
      (hplace : Yaml.Faulty (.ofList (lineFeeds text.toList)) f) : Stray accepted t p (.fault f)

theorem document_of_text (h : t.read p = .ok text.toUTF8) : document t p malformed unreadable =
    match Yaml.read (.ofList (lineFeeds text.toList)) with
    | .ok d => .ok d
    | .error .malformed => .error malformed
    | .error (.fault f) => .error (.fault f) := by
  have hnone : Text.utf8Fault? text.toUTF8.toList = none := Text.utf8Fault?_eq_none.mpr ⟨text, rfl⟩
  rw [document, h]
  dsimp only
  rw [hnone]
  dsimp only
  rw [Text.fromUTF8?_toUTF8]
  rfl

/-- How a file is read as a document. -/
theorem document_cases (t : FileTree) (p : Path) (malformed : Failure)
    (unreadable : FileError → Failure) :
    (∃ cause, t.read p = .error cause ∧
      document t p malformed unreadable = .error (unreadable cause)) ∨
    (∃ content fault, t.read p = .ok content ∧ Text.utf8Fault? content.toList = some fault ∧
      document t p malformed unreadable = .error (.encoding fault)) ∨
    ∃ text : String, t.read p = .ok text.toUTF8 := by
  cases hread : t.read p with
  | error cause => exact .inl ⟨cause, rfl, by rw [document, hread]; rfl⟩
  | ok content =>
    cases hfault : Text.utf8Fault? content.toList with
    | some fault =>
      refine .inr (.inl ⟨content, fault, rfl, hfault, ?_⟩)
      rw [document, hread]
      dsimp only
      rw [hfault]
      rfl
    | none =>
      obtain ⟨text, rfl⟩ := Text.utf8Fault?_eq_none.mp hfault
      exact .inr (.inr ⟨text, rfl⟩)

theorem document_eq_error {accepted : Prop} (haccepted : accepted)
    (h : document t p malformed unreadable = .error e) :
    e = malformed ∨ (∃ cause, e = unreadable cause) ∨ Stray accepted t p e := by
  rcases document_cases t p malformed unreadable with ⟨cause, _, hend⟩ |
    ⟨content, fault, hread, hfault, hend⟩ | ⟨text, hread⟩
  · obtain rfl := Except.error.inj (h.symm.trans hend)
    exact .inr (.inl ⟨cause, rfl⟩)
  · obtain rfl := Except.error.inj (h.symm.trans hend)
    refine .inr (.inr (.bytes content fault haccepted hread hfault fun text heq => ?_))
    rw [Text.utf8Fault?_eq_none.mpr ⟨text, heq⟩] at hfault
    cases hfault
  · rw [document_of_text hread] at h
    cases hyaml : Yaml.read (.ofList (lineFeeds text.toList)) with
    | ok d =>
      rw [hyaml] at h
      cases h
    | error cause =>
      rw [hyaml] at h
      cases cause with
      | malformed =>
        cases h
        exact .inl rfl
      | fault f =>
        cases h
        exact .inr (.inr (.scalar text f haccepted hread hyaml (Yaml.read_fault hyaml)))

namespace Stray

variable {accepted : Prop}

theorem ne_load (h : Stray accepted t p e) (cause : LoadError) : e ≠ .load cause := by
  rintro rfl
  cases h

theorem ne_config (h : Stray accepted t p e) (cause : ConfigError) : e ≠ .config cause := by
  rintro rfl
  cases h

/-- Where the path can be looked up, there is a file that no document is read from. -/
theorem exists_file (h : Stray accepted t p e)
    (hshort : t.locate p ≠ .error (.refused .nameTooLong p.text)) :
    accepted ∧ (∃ content, t.read p = .ok content) ∧
      ∀ malformed unreadable, document t p malformed unreadable = .error e := by
  cases h with
  | path hlong => exact absurd hlong hshort
  | bytes content fault haccepted hread hfault =>
    refine ⟨haccepted, ⟨content, hread⟩, fun malformed unreadable => ?_⟩
    rw [document, hread]
    dsimp only
    rw [hfault]
    rfl
  | scalar text f haccepted hread hfault =>
    refine ⟨haccepted, ⟨_, hread⟩, fun malformed unreadable => ?_⟩
    rw [document_of_text hread, hfault]

/-- Where the path cannot be looked up, that is the failure. -/
theorem eq_path (h : Stray accepted t p e)
    (hlong : t.locate p = .error (.refused .nameTooLong p.text)) :
    e = .file (.refused .nameTooLong p.text) := by
  have hnone : ∀ content, t.read p ≠ .ok content := by
    intro content hread
    obtain ⟨hlocate, _⟩ := FileTree.read_eq_ok.mp hread
    rw [hlong] at hlocate
    cases hlocate
  cases h with
  | path => rfl
  | bytes content _ _ hread => exact absurd hread (hnone content)
  | scalar text _ _ hread => exact absurd hread (hnone _)

end Stray

theorem config_fails_iff : (config t p = .error e ∧ ∀ cause, e ≠ .config ⟨some p.text, cause⟩) ↔
    Stray True t p e := by
  constructor
  · rintro ⟨h, hother⟩
    rw [config] at h
    cases hexists : t.exists? p with
    | error cause =>
      rw [hexists] at h
      cases h
      obtain ⟨hlong, rfl⟩ := FileTree.exists?_eq_error.mp hexists
      exact .path hlong
    | ok there =>
      rw [hexists] at h
      cases there with
      | false => cases h
      | true =>
        dsimp only at h
        cases hdocument : document t p (.config ⟨some p.text, .malformed⟩)
            fun e => .config ⟨some p.text, .unreadable e⟩ with
        | error e' =>
          rw [hdocument] at h
          cases h
          rcases document_eq_error trivial hdocument with rfl | ⟨cause, rfl⟩ | hstray
          · exact absurd rfl (hother _)
          · exact absurd rfl (hother _)
          · exact hstray
        | ok d =>
          rw [hdocument] at h
          dsimp only [bind, Except.bind, parseConfig] at h
          split at h
          · cases h
          · cases h
            exact absurd rfl (hother _)
  · intro h
    refine ⟨?_, fun cause => h.ne_config _⟩
    rw [config]
    by_cases hlong : t.locate p = .error (.refused .nameTooLong p.text)
    · rw [FileTree.exists?_eq_error.mpr ⟨hlong, rfl⟩, h.eq_path hlong]
      rfl
    · obtain ⟨_, ⟨content, hread⟩, hdocument⟩ := h.exists_file hlong
      obtain ⟨hlocate, hentry⟩ := FileTree.read_eq_ok.mp hread
      rw [FileTree.exists?_eq_true.mpr ⟨hlocate, Option.isSome_of_eq_some hentry⟩]
      dsimp only
      rw [hdocument]
      rfl

theorem mapping_fails_iff : (mapping t p = .error e ∧ ∀ cause, e ≠ .load ⟨p.text, cause⟩) ↔
    Stray (extensions.contains (Text.lower p.extension) = true) t p e := by
  constructor
  · rintro ⟨h, hother⟩
    rw [mapping] at h
    cases hfind : t.find? p with
    | error cause =>
      rw [hfind] at h
      cases h
      obtain ⟨hlong, rfl⟩ := FileTree.find?_eq_error.mp hfind
      exact .path hlong
    | ok entry =>
      rw [hfind] at h
      rcases entry with _ | _ | content
      · cases h
        exact absurd rfl (hother _)
      · cases h
        exact absurd rfl (hother _)
      · dsimp only at h
        by_cases haccepted : extensions.contains (Text.lower p.extension) = true
        · rw [haccepted, if_neg (by decide)] at h
          cases hdocument : document t p (.load ⟨p.text, .malformed⟩)
              fun e => .load ⟨p.text, .unreadable e⟩ with
          | error e' =>
            rw [hdocument] at h
            cases h
            rcases document_eq_error haccepted hdocument with rfl | ⟨cause, rfl⟩ | hstray
            · exact absurd rfl (hother _)
            · exact absurd rfl (hother _)
            · exact hstray
          | ok d =>
            rw [hdocument] at h
            dsimp only [bind, Except.bind] at h
            split at h
            · cases h
            · cases h
              exact absurd rfl (hother _)
            · cases h
              exact absurd rfl (hother _)
        · rw [Bool.not_eq_true] at haccepted
          rw [haccepted] at h
          cases h
          exact absurd rfl (hother _)
  · intro h
    refine ⟨?_, fun cause => h.ne_load _⟩
    rw [mapping]
    by_cases hlong : t.locate p = .error (.refused .nameTooLong p.text)
    · rw [FileTree.find?_eq_error.mpr ⟨hlong, rfl⟩, h.eq_path hlong]
      rfl
    · obtain ⟨haccepted, ⟨content, hread⟩, hdocument⟩ := h.exists_file hlong
      have hfind : t.find? p = .ok (some (.file content)) := by
        rw [FileTree.find?, FileTree.find_eq_ok.mpr (FileTree.read_eq_ok.mp hread)]
      rw [hfind]
      dsimp only
      rw [haccepted, hdocument]
      rfl

/-- Loading of schemas fails with a report of the file or for a stray failure, and so does loading of a
configuration. -/
theorem loading_fails_iff (t : FileTree) (p : Path) (e : Failure) :
    ((schemas t p = .error e ∧ ∀ cause, e ≠ .load ⟨p.text, cause⟩) ↔
      Stray (extensions.contains (Text.lower p.extension) = true) t p e) ∧
    ((config t p = .error e ∧ ∀ cause, e ≠ .config ⟨some p.text, cause⟩) ↔ Stray True t p e) := by
  refine ⟨?_, config_fails_iff⟩
  rw [← mapping_fails_iff, schemas]
  cases hmapping : mapping t p with
  | error e' => exact Iff.rfl
  | ok found =>
    obtain ⟨heap, document⟩ := found
    constructor
    · rintro ⟨h, hother⟩
      dsimp only [bind, Except.bind] at h
      split at h
      · cases h
      · split at h
        · cases h
        · cases h
        · cases h
          exact absurd rfl (hother _)
      · cases h
        exact absurd rfl (hother _)
    · rintro ⟨h, _⟩
      cases h

/-- A file with a byte that is not UTF-8, and one with a day that there is not. -/
def faultyTree : FileTree :=
  { entries := [(⟨.above 0, ["bytes.yaml"]⟩, .file ⟨#[0x61, 0x3a, 0x20, 0xff]⟩),
    (⟨.above 0, ["day.yaml"]⟩, .file "a: 2021-13-45\n".toUTF8)] }

/-- Whether loading ended in a failure that does not report the file. -/
def endsStray {α : Type} : Except Failure α → Bool
  | .error (.load _) => false
  | .error (.config _) => false
  | .error _ => true
  | .ok _ => false

theorem faulty_files_unreported :
    endsStray (schemas faultyTree ⟨"", ["bytes.yaml"]⟩) = true ∧
      endsStray (config faultyTree ⟨"", ["bytes.yaml"]⟩) = true ∧
      endsStray (schemas faultyTree ⟨"", ["day.yaml"]⟩) = true ∧
      endsStray (config faultyTree ⟨"", ["day.yaml"]⟩) = true := by
  refine ⟨?_, ?_, ?_, ?_⟩
  · decide +kernel
  · decide +kernel
  · decide +kernel
  · decide +kernel

end SchemaCompiler.Source
