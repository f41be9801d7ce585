import Mathlib.Data.List.Forall2
import SchemaCompiler.Lowering

/-! Outcomes and diagnostics of composed steps, in terms of those of their parts. -/
namespace SchemaCompiler.Traced

variable {α β : Type}

/-- The error that a step ends with. -/
def error? (t : Traced α) : Option LoweringError :=
  match t.outcome with
  | .error e => some e
  | .ok _ => none

theorem bind_def (t : Traced α) (f : α → Traced β) : t >>= f = t.bind f := rfl

theorem pure_def (a : α) : (Pure.pure a : Traced α) = ⟨.ok a, []⟩ := rfl

instance : LawfulMonad Traced := by
  refine LawfulMonad.mk' Traced ?_ ?_ ?_
  · rintro α ⟨outcome, ds⟩
    cases outcome <;> simp [Functor.map, bind, pure]
  · intro α β a f
    simp [Bind.bind, Pure.pure, bind, pure]
  · rintro α β γ ⟨outcome, ds⟩ f g
    cases outcome with
    | error e => rfl
    | ok a =>
      simp only [Bind.bind, bind]
      cases (f a).outcome <;> simp

theorem ok_bind (a : α) (ds : List Diagnostic) (f : α → Traced β) :
    (⟨.ok a, ds⟩ : Traced α) >>= f = ⟨(f a).outcome, ds ++ (f a).diagnostics⟩ := rfl

theorem ok_bind_pure (a : α) (ds : List Diagnostic) (f : α → β) :
    ((⟨.ok a, ds⟩ : Traced α) >>= fun a => Pure.pure (f a)) = ⟨.ok (f a), ds⟩ := by
  rw [ok_bind, pure_def, List.append_nil]

@[simp] theorem map_fail (e : LoweringError) (f : α → β) :
    f <$> (fail e : Traced α) = fail e := rfl

theorem error?_eq_none {t : Traced α} : t.error? = none ↔ ∃ a, t.outcome = .ok a := by
  cases t with
  | mk outcome ds => cases outcome <;> simp [error?]

theorem error?_eq_some {t : Traced α} {e : LoweringError} :
    t.error? = some e ↔ t.outcome = .error e := by
  cases t with
  | mk outcome ds => cases outcome <;> simp [error?]

theorem eq_ok_of_outcome {t : Traced α} {a : α} (h : t.outcome = .ok a) :
    t = ⟨.ok a, t.diagnostics⟩ := by
  cases t with
  | mk outcome ds => cases h; rfl

/-- The error of a step that has to write something out. -/
def tooLongIf (unwritable : Bool) : Option LoweringError :=
  if unwritable then some .numberTooLong else none

@[simp] theorem tooLongIf_eq_none {b : Bool} : tooLongIf b = none ↔ b = false := by
  cases b <;> simp [tooLongIf]

theorem tooLongIf_or (a b : Bool) : tooLongIf (a || b) = (tooLongIf a).or (tooLongIf b) := by
  cases a <;> rfl

theorem findSome?_tooLongIf (p : α → Bool) (xs : List α) :
    xs.findSome? (fun x => tooLongIf (p x)) = tooLongIf (xs.any p) := by
  induction xs with
  | nil => rfl
  | cons x rest ih =>
    rw [List.findSome?_cons, ih, List.any_cons, tooLongIf_or]
    cases p x <;> rfl

@[simp] theorem ofText_some_bind (s : String) (f : String → Traced β) :
    ofText (some s) >>= f = f s := rfl

theorem error?_ofText (s : Option String) : (ofText s).error? = tooLongIf s.isNone := by
  cases s <;> rfl

/-- A step that ends well hands over to the next one. -/
theorem bind_eq_ok {t : Traced α} {f : α → Traced β} {b : β} {ds : List Diagnostic} :
    t >>= f = ⟨.ok b, ds⟩ ↔
      ∃ a ds₁ ds₂, t = ⟨.ok a, ds₁⟩ ∧ f a = ⟨.ok b, ds₂⟩ ∧ ds = ds₁ ++ ds₂ := by
  cases t with
  | mk outcome ds₁ =>
    cases outcome with
    | error e => simp [bind_def, bind]
    | ok a =>
      simp only [bind_def, bind, mk.injEq, Except.ok.injEq]
      constructor
      · rintro ⟨ho, rfl⟩
        exact ⟨a, ds₁, _, ⟨rfl, rfl⟩, eq_ok_of_outcome ho, rfl⟩
      · rintro ⟨_, _, ds₂, ⟨rfl, rfl⟩, hf, rfl⟩
        simp [hf]

theorem error?_bind (t : Traced α) (f : α → Traced β) :
    (t >>= f).error? = t.error?.or (match t.outcome with
      | .ok a => (f a).error?
      | .error _ => none) := by
  cases t with
  | mk outcome ds => cases outcome <;> rfl

@[simp] theorem error?_ok_bind (a : α) (ds : List Diagnostic) (f : α → Traced β) :
    ((⟨.ok a, ds⟩ : Traced α) >>= f).error? = (f a).error? := rfl

/-- The error of two steps when the second one ends alike for every value. -/
theorem error?_bind_of_forall {t : Traced α} {f : α → Traced β} {e : Option LoweringError}
    (hf : ∀ a, (f a).error? = e) : (t >>= f).error? = t.error?.or e := by
  rw [error?_bind]
  cases t with
  | mk outcome ds =>
    cases outcome with
    | error e' => rfl
    | ok a => simp [hf a]

/-- What a step keeps of an element; nothing when it fails. -/
def kept (t : Traced (Option β)) : Option β :=
  match t.outcome with
  | .ok b => b
  | .error _ => none

theorem error?_collect (f : α → Traced (Option β)) (xs : List α) :
    (collect f xs).error? = xs.findSome? fun x => (f x).error? := by
  induction xs with
  | nil => rfl
  | cons x rest ih =>
    rw [collect, error?_bind_of_forall (e := rest.findSome? fun x => (f x).error?),
      List.findSome?_cons]
    · cases (f x).error? <;> rfl
    · intro b
      rw [error?_bind_of_forall (e := none) fun bs => rfl, ih, Option.or_none]

/-- Collecting ends well when every element does; each one adds what it keeps and what it notes. -/
theorem collect_eq_ok {f : α → Traced (Option β)} {xs : List α} {ys : List β}
    {ds : List Diagnostic} :
    collect f xs = ⟨.ok ys, ds⟩ ↔ (∀ x ∈ xs, (f x).error? = none) ∧
      ys = xs.filterMap (fun x => (f x).kept) ∧ ds = xs.flatMap fun x => (f x).diagnostics := by
  induction xs generalizing ys ds with
  | nil => simp [collect, pure, eq_comm]
  | cons x rest ih =>
    rw [collect, bind_eq_ok]
    constructor
    · rintro ⟨b, ds₁, _, hx, hrest, rfl⟩
      obtain ⟨bs, ds₂, _, hc, hp, rfl⟩ := bind_eq_ok.mp hrest
      obtain ⟨hok, rfl, rfl⟩ := ih.mp hc
      obtain ⟨rfl, rfl⟩ : _ ∧ _ := by simpa [pure_def] using hp
      refine ⟨?_, ?_, ?_⟩
      · simpa [hx, error?] using hok
      · cases b <;> simp [hx, kept]
      · simp [hx]
    · rintro ⟨hok, rfl, rfl⟩
      obtain ⟨b, hb⟩ := error?_eq_none.mp (hok x (by simp))
      have hx := eq_ok_of_outcome hb
      refine ⟨b, _, rest.flatMap fun x => (f x).diagnostics, hx, ?_, by simp⟩
      refine bind_eq_ok.mpr ⟨_, _, [], ih.mpr ⟨fun y hy => hok y (by simp [hy]), rfl, rfl⟩, ?_,
        by simp⟩
      rw [List.filterMap_cons, pure_def]
      cases b <;> simp [kept, hb]

theorem collect_of_forall {f : α → Traced (Option β)} {xs : List α} (b : α → Option β)
    (ds : α → List Diagnostic) (hf : ∀ x ∈ xs, f x = ⟨.ok (b x), ds x⟩) :
    collect f xs = ⟨.ok (xs.filterMap b), xs.flatMap ds⟩ := by
  rw [collect_eq_ok]
  refine ⟨fun x hx => by rw [hf x hx]; rfl, ?_, ?_⟩
  · exact List.filterMap_congr fun x hx => by rw [hf x hx]; rfl
  · exact List.flatMap_congr fun x hx => by rw [hf x hx]

end SchemaCompiler.Traced
