import SchemaCompiler.Proofs.Lowering.Traced

/-!
Diagnostics of lowering are those of findings. Every step records findings only, whether or not it
goes through, and so does the run.
-/
namespace SchemaCompiler

/-- A diagnostic that says what a finding says, at some path. -/
def Diagnostic.IsFinding (d : Diagnostic) : Prop := ∃ (f : Finding) (path : String), d = f.atPath path

namespace Traced

variable {α β : Type} {t : Traced α} {f : α → Traced β}

/-- A step that leaves nothing but findings. -/
def Records (t : Traced α) : Prop := ∀ d ∈ t.diagnostics, d.IsFinding

theorem records_pure (a : α) : (Pure.pure a : Traced α).Records := nofun

theorem records_fail (e : LoweringError) : (fail e : Traced α).Records := nofun

theorem records_note (f : Finding) (path : String) : (note f path).Records :=
  List.forall_mem_singleton.mpr ⟨f, path, rfl⟩

theorem records_ofText (s : Option String) : (ofText s).Records := by
  cases s with
  | none => exact records_fail _
  | some s => exact records_pure s

theorem Records.bind (ht : t.Records) (hf : ∀ a, (f a).Records) : (t >>= f).Records := by
  obtain ⟨outcome, ds⟩ := t
  cases outcome with
  | error e => exact ht
  | ok a => exact List.forall_mem_append.mpr ⟨ht, hf a⟩

theorem records_collect {f : α → Traced (Option β)} (hf : ∀ a, (f a).Records) (xs : List α) :
    (collect f xs).Records := by
  induction xs with
  | nil => exact records_pure []
  | cons x rest ih => exact (hf x).bind fun _ => ih.bind fun _ => records_pure _

end Traced

namespace Lowering

open Traced

variable {h : Heap} {visit : Address → Site → Traced Shape}

theorem records_textEntries (h : Heap) (finding : String → Finding) (path : String) (list : Address) :
    (textEntries h finding path list).Records := by
  refine records_collect (fun ⟨v, i⟩ => ?_) _
  rw [textEntries.entry.eq_def]
  split
  · exact records_pure _
  · exact (records_ofText _).bind fun _ => (records_note _ _).bind fun _ => records_pure _

theorem records_members (h : Heap) (node : Address) (path : String) :
    (members h node path).Records := by
  rw [members]
  split
  · exact records_textEntries _ _ _ _
  · exact (records_note _ _).bind fun _ => records_pure _

theorem records_required (h : Heap) (node : Address) (path : String) :
    (required h node path).Records := by
  rw [required]
  split
  · exact records_pure _
  · exact records_textEntries _ _ _ _
  · exact (records_note _ _).bind fun _ => records_pure _

theorem records_properties (h : Heap) (node : Address) (site : Site) :
    (properties h node site).Records := by
  rw [properties]
  split
  · exact records_pure _
  · refine (records_collect (fun _ => ?_) _).bind fun _ => records_pure _
    exact (records_ofText _).bind fun _ => records_pure _
  · exact (records_note _ _).bind fun _ => records_pure _

section Level

variable (hvisit : ∀ node site, (visit node site).Records) (node : Address) (site : Site)
include hvisit

theorem records_field (names : List String) (p : String × Value) :
    (field h visit site names p).Records := by
  rw [field.eq_def]
  split
  · exact (hvisit _ _).bind fun _ => records_pure _
  · exact (records_note _ _).bind fun _ => records_pure _

theorem records_objectDeclaration : (objectDeclaration h visit node site).Records := by
  refine (records_required _ _ _).bind fun names => (records_properties _ _ _).bind fun properties => ?_
  exact (records_collect (records_field hvisit site names) _).bind fun _ => records_pure _

theorem records_element : (element h visit node site).Records := by
  rw [element]
  split
  · exact hvisit _ _
  · exact (records_note _ _).bind fun _ => records_pure _

omit hvisit in
theorem records_primitive (type : Value) : (primitive h node site type).Records := by
  rw [primitive.eq_def]
  split
  · exact records_fail _
  · exact records_fail _
  · split
    · exact records_pure _
    · exact (records_note _ _).bind fun _ => records_pure _
  · exact (records_ofText _).bind fun _ => (records_note _ _).bind fun _ => records_pure _

omit hvisit in
theorem records_invalidReference (v : Value) : (shapeOf.invalidReference h site v).Records :=
  (records_ofText _).bind fun _ => (records_note _ _).bind fun _ => records_pure _

theorem records_shapeOf : (shapeOf h visit node site).Records := by
  rw [shapeOf]
  dsimp only
  split
  · exact (records_members _ _ _).bind fun _ => records_pure _
  · split
    · exact records_invalidReference _ _
    · exact records_pure _
  · exact records_invalidReference _ _
  · split
    · exact (records_objectDeclaration hvisit node site).bind fun _ => records_pure _
    · split
      · exact (records_element hvisit node site).bind fun _ => records_pure _
      · exact records_primitive node site _

theorem records_declarationOf : (declarationOf h visit node site).Records := by
  rw [declarationOf]
  split
  · exact (records_members _ _ _).bind fun _ => records_pure _
  · have hobject := records_objectDeclaration (h := h) hvisit node site
    dsimp only
    split
    · exact (records_ofText _).bind fun _ => (records_note _ _).bind fun _ => hobject
    · exact hobject

end Level

/-- However deep a node lies, its visit leaves nothing but findings. -/
theorem records_shape (h : Heap) (limit : Int) (room : Nat) (outer : List Address) (node : Address)
    (site : Site) : (shape h limit room outer node site).Records := by
  induction room generalizing outer node site with
  | zero => exact records_fail _
  | succ room ih =>
    rw [shape]
    split
    · exact records_fail _
    · exact records_shapeOf (ih _) node site

theorem records_declaration (h : Heap) (limit : Int) (node : Address) (site : Site) :
    (declaration h limit node site).Records := by
  rw [declaration]
  split
  · exact records_fail _
  · exact records_declarationOf (records_shape h limit _ _) node site

theorem records_entry (h : Heap) (limit : Int) (e : Scalar × Value) : (entry h limit e).Records := by
  obtain ⟨key, v⟩ := e
  refine (records_ofText _).bind fun name => ?_
  split
  · exact (records_declaration _ _ _ _).bind fun _ => records_pure _
  · exact (records_note _ _).bind fun _ => records_pure _

/-- Nothing but findings is recorded about a document. -/
theorem records_schemas (h : Heap) (limit : Int) (entries : Entries) :
    (schemas h limit entries).Records :=
  records_collect (records_entry h limit) entries

end Lowering
end SchemaCompiler
