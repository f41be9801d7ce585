import SchemaCompiler.Yaml.Token

/-!
Runs that stop. The parts of reading a document hand a state on and stop with an error. What a part keeps,
gives and stops for is found from its steps.
-/
namespace SchemaCompiler.Yaml

variable {σ α β : Type} {valid : σ → Prop} {cause : Fault → Prop} {post : α → Prop}
  {next : β → Prop} {x : StateT σ (Except Error) α}

/-- From a valid state a run ends in a valid state with what is promised, or in a fault that there is a
cause for, or it finds the document malformed. -/
def Blames (valid : σ → Prop) (cause : Fault → Prop) (post : α → Prop)
    (x : StateT σ (Except Error) α) : Prop :=
  ∀ s, valid s → (∀ a s', x.run s = .ok (a, s') → valid s' ∧ post a) ∧
    ∀ f, x.run s = .error (.fault f) → cause f

namespace Blames

theorem pure {a : α} (h : post a) : Blames valid cause post (pure a) := by
  intro s hs
  constructor
  · rintro _ _ ⟨⟩
    exact ⟨hs, h⟩
  · rintro _ ⟨⟩

theorem malformed : Blames valid cause post (throw .malformed) := by
  intro s hs
  constructor
  · rintro _ _ ⟨⟩
  · rintro _ ⟨⟩

theorem fault {f : Fault} (h : cause f) : Blames valid cause post (throw (.fault f)) := by
  intro s hs
  constructor
  · rintro _ _ ⟨⟩
  · rintro _ ⟨⟩
    exact h

theorem bind {f : α → StateT σ (Except Error) β} (hx : Blames valid cause post x)
    (hf : ∀ a, post a → Blames valid cause next (f a)) : Blames valid cause next (x >>= f) := by
  intro s hs
  obtain ⟨hok, hfault⟩ := hx s hs
  have hrun : (x >>= f).run s = x.run s >>= fun (a, s') => (f a).run s' := rfl
  rw [hrun]
  cases hend : x.run s with
  | error e =>
    constructor
    · rintro _ _ ⟨⟩
    · rintro f ⟨⟩
      exact hfault f hend
  | ok result =>
    obtain ⟨a, s'⟩ := result
    obtain ⟨hs', ha⟩ := hok a s' hend
    exact hf a ha s' hs'

theorem done (a : α) : Blames valid cause (fun _ => True) (Pure.pure a) := pure trivial

theorem seq {f : α → StateT σ (Except Error) β} (hx : Blames valid cause (fun _ => True) x)
    (hf : ∀ a, Blames valid cause next (f a)) : Blames valid cause next (x >>= f) :=
  hx.bind fun a _ => hf a

theorem ite {c : Prop} [Decidable c] {y : StateT σ (Except Error) α}
    (hx : c → Blames valid cause post x) (hy : ¬c → Blames valid cause post y) :
    Blames valid cause post (if c then x else y) := by
  split
  · next h => exact hx h
  · next h => exact hy h

/-- A step that is taken if it has to be, and what goes on after it. -/
theorem also {c : Prop} [Decidable c] {step : StateT σ (Except Error) Unit}
    {rest : Unit → StateT σ (Except Error) α} (hstep : Blames valid cause (fun _ => True) step)
    (h : Blames valid cause post (rest ())) :
    Blames valid cause post (if c then do rest (← step) else rest ()) :=
  .ite (fun _ => hstep.seq fun _ => h) fun _ => h

/-- A check that finds the document malformed, or what goes on after it. -/
theorem check {c : Prop} [Decidable c] {rest : Unit → StateT σ (Except Error) α}
    (h : Blames valid cause post (rest ())) :
    Blames valid cause post (if c then do rest (← throw .malformed) else rest ()) :=
  .also .malformed h

/-- A step that is chosen by a test, and what goes on after it. -/
theorem choice {test : StateT σ (Except Error) Bool} {yes no : StateT σ (Except Error) β}
    {rest : β → StateT σ (Except Error) α} (htest : Blames valid cause (fun _ => True) test)
    (hyes : Blames valid cause (fun _ => True) yes) (hno : Blames valid cause (fun _ => True) no)
    (hrest : ∀ b, Blames valid cause post (rest b)) :
    Blames valid cause post (do
      let b ← if ← test then yes else no
      rest b) :=
  htest.seq fun _ => .ite (fun _ => hyes.seq hrest) fun _ => hno.seq hrest

theorem discard {x : StateT σ (Except Error) α} (h : Blames valid cause (fun _ => True) x) :
    Blames valid cause (fun _ => True) (discard x) :=
  h.seq fun _ => .done ()

theorem get : Blames valid cause valid (get : StateT σ (Except Error) σ) := by
  intro s hs
  constructor
  · rintro _ _ ⟨⟩
    exact ⟨hs, hs⟩
  · rintro _ ⟨⟩

theorem set {s : σ} (h : valid s) :
    Blames valid cause (fun _ => True) (set s : StateT σ (Except Error) PUnit) := by
  intro _ _
  constructor
  · rintro _ _ ⟨⟩
    exact ⟨h, trivial⟩
  · rintro _ ⟨⟩

theorem modify {f : σ → σ} (h : ∀ s, valid s → valid (f s)) :
    Blames valid cause (fun _ => True) (modify f : StateT σ (Except Error) PUnit) := by
  intro s hs
  constructor
  · rintro _ _ ⟨⟩
    exact ⟨h s hs, trivial⟩
  · rintro _ ⟨⟩

/-- A step that does not look at the state. -/
theorem lift {result : Except Error α} (hok : ∀ a, result = .ok a → post a)
    (hfault : ∀ f, result = .error (.fault f) → cause f) :
    Blames valid cause post (liftM result : StateT σ (Except Error) α) := by
  intro s hs
  cases result with
  | ok a =>
    constructor
    · rintro _ _ ⟨⟩
      exact ⟨hs, hok a rfl⟩
    · rintro _ ⟨⟩
  | error e =>
    constructor
    · rintro _ _ ⟨⟩
    · rintro _ ⟨⟩
      exact hfault _ rfl

theorem mapM {f : α → StateT σ (Except Error) β} (as : List α)
    (h : ∀ a, Blames valid cause (fun _ => True) (f a)) :
    Blames valid cause (fun _ => True) (as.mapM f) := by
  induction as with
  | nil => exact pure trivial
  | cons a as ih =>
    rw [List.mapM_cons]
    exact (h a).seq fun b => ih.seq fun bs => done _

end Blames

end SchemaCompiler.Yaml
