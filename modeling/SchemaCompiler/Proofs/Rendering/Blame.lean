import Mathlib.Order.Bounds.Defs
import SchemaCompiler.Proofs.Rendering.Roles

/-!
What is to blame for a failure. Rendering stops at the first field without a validator, or behind the
fields at the first of the other texts that cannot be made. The failure names the declaration and the
field, unless the error is about the kind of a value.
-/
namespace SchemaCompiler

namespace Text

variable {ε α β : Type}

/-- Two steps fail when the first does, or when it goes through and the second fails. -/
theorem bind_eq_error_iff {t : Except ε α} {f : α → Except ε β} {e : ε} :
    t >>= f = .error e ↔ t = .error e ∨ ∃ a, t = .ok a ∧ f a = .error e := by
  cases t with
  | error e' =>
    constructor
    · intro h
      cases h
      exact .inl rfl
    · rintro (h | ⟨_, h, _⟩)
      · cases h
        rfl
      · cases h
  | ok a =>
    constructor
    · intro h
      exact .inr ⟨a, rfl, h⟩
    · rintro (h | ⟨_, h, hf⟩)
      · cases h
      · cases h
        exact hf

theorem exists_mapM_iff {f : α → Except ε β} {xs : List α} :
    (∃ ys, xs.mapM f = .ok ys) ↔ ∀ x ∈ xs, ∃ y, f x = .ok y := by
  refine ⟨?_, mapM_ok⟩
  rintro ⟨ys, h⟩ x hx
  obtain ⟨y, _, hy⟩ := exists_right_of_mem (forall₂_of_mapM h) hx
  exact ⟨y, hy⟩

/-- Steps in a row fail at the first that does, whatever comes after it. -/
theorem mapM_eq_error_iff {f : α → Except ε β} {xs : List α} {e : ε} :
    xs.mapM f = .error e ↔ ∃ before x after, xs = before ++ x :: after ∧
      (∀ y ∈ before, ∃ b, f y = .ok b) ∧ f x = .error e := by
  induction xs with
  | nil =>
    constructor
    · intro h
      cases h
    · rintro ⟨before, x, after, h, _⟩
      cases before <;> cases h
  | cons x rest ih =>
    rw [List.mapM_cons, bind_eq_error_iff]
    constructor
    · rintro (hx | ⟨y, hy, h⟩)
      · exact ⟨[], x, rest, rfl, by simp, hx⟩
      · obtain hrest | ⟨_, _, h⟩ := bind_eq_error_iff.mp h
        · obtain ⟨before, z, after, rfl, hbefore, hz⟩ := ih.mp hrest
          exact ⟨x :: before, z, after, rfl, List.forall_mem_cons.mpr ⟨⟨y, hy⟩, hbefore⟩, hz⟩
        · cases h
    · rintro ⟨before, z, after, h, hbefore, hz⟩
      cases before with
      | nil =>
        cases h
        exact .inl hz
      | cons y before =>
        cases h
        obtain ⟨⟨b, hb⟩, hbefore⟩ := List.forall_mem_cons.mp hbefore
        refine .inr ⟨b, hb, bind_eq_error_iff.mpr (.inl ?_)⟩
        exact ih.mpr ⟨before, z, after, rfl, hbefore, hz⟩

end Text

open Text

namespace Rendered

variable {r : Registry} {d : Declaration}

/-- The first thing about a declaration that cannot be rendered is a field, or one of the other texts
when all the fields are rendered. -/
inductive FailsFirst (r : Registry) (d : Declaration) : Option String → PatternError → Prop where
  | field {before after : List Field} {f : Field} {e : PatternError}
      (split : d.fields = before ++ f :: after)
      (earlier : ∀ g ∈ before, ∃ text, g.validator r = .ok text)
      (fails : f.validator r = .error e) : FailsFirst r d (some f.name) e
  | own {before after : List (Except PatternError String)} {e : PatternError}
      (fields : ∀ f ∈ d.fields, ∃ text, f.validator r = .ok text)
      (split : ownTexts r d = before ++ .error e :: after)
      (earlier : ∀ text ∈ before, ∃ s, text = .ok s) : FailsFirst r d none e

theorem blame_eq_error_iff {α : Type} {declaration : String} {field : Option String}
    {result : Except PatternError α} {failure : RenderFailure} :
    blame declaration field result = .error failure ↔ ∃ e, result = .error e ∧
      failure = if e.isAboutKind then .unblamed e else .blamed ⟨declaration, field, .pattern e⟩ := by
  cases result with
  | ok a =>
    constructor
    · intro h
      cases h
    · rintro ⟨_, h, _⟩
      cases h
  | error e =>
    constructor
    · intro h
      cases h
      exact ⟨e, rfl, rfl⟩
    · rintro ⟨_, h, rfl⟩
      cases h
      rfl

/-- A field is rendered exactly if it has a validator. -/
theorem exists_fieldView_iff {field : Option String} {f : Field} :
    (∃ view, blame d.name field (fieldView r f) = .ok view) ↔
      ∃ text, f.validator r = .ok text := by
  simp only [blame_eq_ok, fieldView, bind_eq_ok_iff]
  constructor
  · rintro ⟨_, text, h, _⟩
    exact ⟨text, h⟩
  · rintro ⟨text, h⟩
    exact ⟨_, text, h, rfl⟩

theorem fieldView_eq_error_iff {f : Field} {e : PatternError} :
    fieldView r f = .error e ↔ f.validator r = .error e := by
  rw [fieldView, bind_eq_error_iff]
  refine ⟨?_, .inl⟩
  rintro (h | ⟨_, _, h⟩)
  · exact h
  · cases h

theorem exists_fieldViews_iff :
    (∃ views, d.fields.mapM (fun f => blame d.name (some f.name) (fieldView r f)) = .ok views) ↔
      ∀ f ∈ d.fields, ∃ text, f.validator r = .ok text := by
  rw [exists_mapM_iff]
  exact forall₂_congr fun _ _ => exists_fieldView_iff

theorem exists_ofFields_iff {fields : List FieldView} :
    (∃ v, blame d.name none (ofFields r d fields) = .ok v) ↔
      ∀ text ∈ ownTexts r d, ∃ s, text = .ok s := by
  have hown : (∃ texts, (ownTexts r d).mapM id = .ok texts) ↔
      ∀ text ∈ ownTexts r d, ∃ s, text = .ok s := exists_mapM_iff
  simp only [blame_eq_ok, ofFields_eq, bind_eq_ok_iff, ← hown]
  constructor
  · rintro ⟨_, texts, h, _⟩
    exact ⟨texts, h⟩
  · rintro ⟨texts, h⟩
    exact ⟨_, texts, h, rfl⟩

theorem ofFields_eq_error_iff {fields : List FieldView} {e : PatternError} :
    ofFields r d fields = .error e ↔ ∃ before after, ownTexts r d = before ++ .error e :: after ∧
      ∀ text ∈ before, ∃ s, text = .ok s := by
  rw [ofFields_eq, bind_eq_error_iff]
  constructor
  · rintro (h | ⟨_, _, h⟩)
    · obtain ⟨before, _, after, split, earlier, rfl⟩ := mapM_eq_error_iff.mp h
      exact ⟨before, after, split, earlier⟩
    · cases h
  · rintro ⟨before, after, split, earlier⟩
    exact .inl (mapM_eq_error_iff.mpr ⟨before, .error e, after, split, earlier, rfl⟩)

/-- A declaration is rendered exactly if its fields and all its other texts are. -/
theorem exists_ofDeclaration_iff :
    (∃ v, ofDeclaration r d = .ok v) ↔ (∀ f ∈ d.fields, ∃ text, f.validator r = .ok text) ∧
      ∀ text ∈ ownTexts r d, ∃ s, text = .ok s := by
  constructor
  · rintro ⟨v, h⟩
    obtain ⟨views, hviews, hown⟩ := bind_eq_ok_iff.mp h
    exact ⟨exists_fieldViews_iff.mp ⟨views, hviews⟩, exists_ofFields_iff.mp ⟨v, hown⟩⟩
  · rintro ⟨hfields, hown⟩
    obtain ⟨views, hviews⟩ := exists_fieldViews_iff.mpr hfields
    obtain ⟨v, hv⟩ := exists_ofFields_iff.mpr hown
    exact ⟨v, bind_eq_ok_iff.mpr ⟨views, hviews, hv⟩⟩

/-- A declaration fails with the error of the first thing about it that cannot be rendered. -/
theorem ofDeclaration_eq_error_iff {failure : RenderFailure} :
    ofDeclaration r d = .error failure ↔ ∃ field e, FailsFirst r d field e ∧
      failure = if e.isAboutKind then .unblamed e else .blamed ⟨d.name, field, .pattern e⟩ := by
  rw [ofDeclaration, bind_eq_error_iff]
  constructor
  · rintro (h | ⟨views, hviews, h⟩)
    · obtain ⟨before, f, after, split, earlier, h⟩ := mapM_eq_error_iff.mp h
      obtain ⟨e, he, hfailure⟩ := blame_eq_error_iff.mp h
      refine ⟨some f.name, e, .field split (fun g hg => ?_) (fieldView_eq_error_iff.mp he), hfailure⟩
      exact exists_fieldView_iff.mp (earlier g hg)
    · obtain ⟨e, he, hfailure⟩ := blame_eq_error_iff.mp h
      obtain ⟨before, after, split, earlier⟩ := ofFields_eq_error_iff.mp he
      have hfields := exists_fieldViews_iff.mp ⟨views, hviews⟩
      exact ⟨none, e, .own hfields split earlier, hfailure⟩
  · rintro ⟨_, e, first, hfailure⟩
    cases first with
    | @field before after f _ split earlier fails =>
      refine .inl (mapM_eq_error_iff.mpr ⟨before, f, after, split, fun g hg => ?_, ?_⟩)
      · exact exists_fieldView_iff.mpr (earlier g hg)
      · exact blame_eq_error_iff.mpr ⟨e, fieldView_eq_error_iff.mpr fails, hfailure⟩
    | @own before after _ fields split earlier =>
      obtain ⟨views, hviews⟩ := exists_fieldViews_iff.mpr fields
      refine .inr ⟨views, hviews, blame_eq_error_iff.mpr ⟨e, ?_, hfailure⟩⟩
      exact ofFields_eq_error_iff.mpr ⟨before, after, split, earlier⟩

/-- With the fields in the order of their names, the field to blame has the least name among those that
cannot be rendered. -/
theorem FailsFirst.isLeast {name : String} {e : PatternError}
    (hd : d.fields.Pairwise (·.name ≤ ·.name)) (first : FailsFirst r d (some name) e) :
    IsLeast {name | ∃ f ∈ d.fields, f.name = name ∧ ∃ e, f.validator r = .error e} name := by
  cases first with
  | @field before after f _ split earlier fails =>
    rw [split] at hd ⊢
    refine ⟨⟨f, by simp, rfl, e, fails⟩, ?_⟩
    rintro _ ⟨g, hg, rfl, e', hfails⟩
    rcases List.mem_append.mp hg with hg | hg
    · obtain ⟨text, htext⟩ := earlier g hg
      rw [htext] at hfails
      cases hfails
    · rcases List.mem_cons.mp hg with rfl | hg
      · exact le_refl _
      · have hafter := (List.pairwise_append.mp hd).2.1
        exact List.rel_of_pairwise_cons hafter hg

theorem mem_ordered_fields {f : Field} : f ∈ d.ordered.fields ↔ f ∈ d.fields :=
  List.mem_mergeSort

/-- A declaration with its fields in the order of their names is rendered exactly if its fields and all
its other texts are. Else it fails with the error of the first of them that is not. The failure names
the declaration, and the field if it is one, unless the error is about the kind of a value; the field
has the least name of those that cannot be rendered. Patterns in roles that the declaration does not
call for play no part. -/
theorem failures_blamed (r : Registry) (d : Declaration) :
    ((∃ v, ofDeclaration r d.ordered = .ok v) ↔
      (∀ f ∈ d.fields, ∃ text, f.validator r = .ok text) ∧
        ∀ text ∈ ownTexts r d, ∃ s, text = .ok s) ∧
    (∀ failure, ofDeclaration r d.ordered = .error failure ↔ ∃ field e,
      FailsFirst r d.ordered field e ∧
        failure = if e.isAboutKind then .unblamed e else .blamed ⟨d.name, field, .pattern e⟩) ∧
    (∀ name e, FailsFirst r d.ordered (some name) e →
      IsLeast {name | ∃ f ∈ d.fields, f.name = name ∧ ∃ e, f.validator r = .error e} name) ∧
    ∀ patterns, (∀ role ∈ d.roles r, patterns role = r.target.pattern role) →
      ofDeclaration (r.withPatterns patterns) d.ordered = ofDeclaration r d.ordered := by
  refine ⟨?_, fun failure => ofDeclaration_eq_error_iff, fun name e first => ?_,
    fun patterns hpatterns => ofDeclaration_withPatterns fun role hrole => hpatterns role ?_⟩
  · rw [exists_ofDeclaration_iff]
    exact and_congr_left' (forall_congr' fun f => imp_congr_left mem_ordered_fields)
  · have hsorted : d.ordered.fields.Pairwise (·.name ≤ ·.name) :=
      pairwise_mergeSort_le Field.name d.fields
    simpa only [mem_ordered_fields] using first.isLeast hsorted
  · rcases List.mem_append.mp hrole with hrole | hrole
    · obtain ⟨f, hf, hrole⟩ := List.mem_flatMap.mp hrole
      exact List.mem_append_left _ (List.mem_flatMap.mpr ⟨f, mem_ordered_fields.mp hf, hrole⟩)
    · exact List.mem_append_right _ hrole

theorem faulty_optional_blamed :
    ofDeclaration (.defaults { Target.ioTs with optionalPattern := "{nope}" })
      (.object "A" "" [⟨"c", .primitive "string" "", "", false, false⟩,
        ⟨"b", .primitive "string" "", "", true, false⟩,
        ⟨"a", .primitive "string" "", "", true, true⟩] []) =
      .error (.blamed ⟨"A", some "b", .pattern (.unknownName "nope")⟩) := by
  have hfields : sortFields [⟨"c", .primitive "string" "", "", false, false⟩,
      ⟨"b", .primitive "string" "", "", true, false⟩,
      ⟨"a", .primitive "string" "", "", true, true⟩] =
        [⟨"a", .primitive "string" "", "", true, true⟩] ++
          ⟨"b", .primitive "string" "", "", true, false⟩ ::
            [⟨"c", .primitive "string" "", "", false, false⟩] := by
    simp [sortFields, List.mergeSort, List.MergeSort.Internal.splitInTwo]
  refine ((failures_blamed _ ⟨"A", .object, "", _, [], []⟩).2.1 _).mpr
    ⟨some "b", .unknownName "nope", ?_, rfl⟩
  refine .field (f := ⟨"b", .primitive "string" "", "", true, false⟩) hfields ?_ rfl
  intro g hg
  cases List.mem_singleton.mp hg
  exact ⟨"t.union([t.string, t.null])", rfl⟩

/-- A place that asks a value for what its kind does not have leaves nothing to blame. -/
theorem missing_member_unblamed :
    ofDeclaration (.defaults { Target.ioTs with optionalPattern := "{expr.nope}" })
      ⟨"A", .object, "", [⟨"x", .primitive "string" "", "", false, false⟩], [], []⟩ =
      .error (.unblamed (.noMember "'str' object" "nope")) := by
  rfl

end Rendered
end SchemaCompiler
