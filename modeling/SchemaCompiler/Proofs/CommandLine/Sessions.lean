import SchemaCompiler.CommandLine.Run
import SchemaCompiler.Proofs.Generation.Effects

/-!
Runs of commands. A run goes on from the session that the steps before it left, and only the parts
that generate touch the file tree.
-/
namespace SchemaCompiler.CommandLine.Run

variable {α β : Type} {x : Run α} {f : α → Run β} {s s' : Session}

/-- How a run ends, and the session after it. -/
def on (x : Run α) (s : Session) : Except Stop α × Session := x.run.run s

theorem on_bind (x : Run α) (f : α → Run β) (s : Session) : (x >>= f).on s =
    match x.on s with
    | (.ok a, s') => (f a).on s'
    | (.error e, s') => (.error e, s') := by
  change (match x.on s with | (result, s') => ExceptT.bindCont (fun a => f a) result s') = _
  rcases x.on s with ⟨_ | _, _⟩
  · rfl
  · rfl

theorem on_bind_ok {a : α} (h : x.on s = (.ok a, s')) (f : α → Run β) :
    (x >>= f).on s = (f a).on s' := by
  rw [on_bind, h]

theorem on_bind_error {e : Stop} (h : x.on s = (.error e, s')) (f : α → Run β) :
    (x >>= f).on s = (.error e, s') := by
  rw [on_bind, h]

theorem on_bind_eq_ok {b : β} : (x >>= f).on s = (.ok b, s') ↔
    ∃ a s₁, x.on s = (.ok a, s₁) ∧ (f a).on s₁ = (.ok b, s') := by
  rw [on_bind]
  rcases x.on s with ⟨_ | a, s₁⟩
  · exact ⟨fun h => (nomatch h), fun ⟨_, _, h, _⟩ => (nomatch h)⟩
  · exact ⟨fun h => ⟨a, s₁, rfl, h⟩, fun ⟨_, _, h, hf⟩ => by cases h; exact hf⟩

theorem on_tryCatch (x : Run α) (handle : Stop → Run α) (s : Session) :
    (tryCatch x handle).on s =
      match x.on s with
      | (.ok a, s') => (.ok a, s')
      | (.error e, s') => (handle e).on s' := by
  change ExceptT.tryCatch x handle s = _
  rw [ExceptT.tryCatch]
  rcases hon : x.on s with ⟨_ | _, s₁⟩
  all_goals
    have hrun : x s = (_, s₁) := hon
    simp only [ExceptT.mk, Bind.bind, StateT.bind, hrun]
    rfl

/-- Where each of two runs leads to a session that is related to the one before, both together do. -/
theorem rel_bind (rel : Session → Session → Prop)
    (htrans : ∀ s₁ s₂ s₃, rel s₁ s₂ → rel s₂ s₃ → rel s₁ s₃) (hx : ∀ s, rel s (x.on s).2)
    (hf : ∀ a s, rel s ((f a).on s).2) (s : Session) : rel s ((x >>= f).on s).2 := by
  have hfirst := hx s
  rw [on_bind]
  rcases hon : x.on s with ⟨_ | a, s₁⟩
  · rwa [hon] at hfirst
  · rw [hon] at hfirst
    exact htrans s s₁ _ hfirst (hf a s₁)

theorem on_tree_bind (f : FileTree → Run β) (s : Session) :
    (tree >>= f).on s = (f s.world.tree).on s := rfl

theorem on_get_bind (f : Session → Run β) (s : Session) :
    ((get : Run Session) >>= f).on s = (f s).on s := rfl

theorem on_activity (a : Activity α) (s : Session) : (activity a).on s =
    match a.on s.world with
    | (.ok b, w) => (.ok b, { s with world := w })
    | (.error e, w) => (.error (.failed e), { s with world := w }) := by
  change ((do
    set { s with world := (a.on s.world).2 }
    ofExcept id (a.on s.world).1 : Run α)).on s = _
  rcases a.on s.world with ⟨_ | _, _⟩
  · rfl
  · rfl

/-- A run that leaves the file tree as it is. -/
def Keeps (x : Run α) : Prop := ∀ s, (x.on s).2.world.tree = s.world.tree

theorem Keeps.bind (hx : Keeps x) (hf : ∀ a, Keeps (f a)) : Keeps (x >>= f) :=
  rel_bind (fun s s' => s'.world.tree = s.world.tree) (fun _ _ _ hfirst hnext => hnext.trans hfirst)
    hx hf

theorem keeps_pure (a : α) : Keeps (pure a) := fun _ => rfl

theorem keeps_exit (code : Nat) : Keeps (exit code : Run α) := fun _ => rfl

theorem keeps_fail (e : Failure) : Keeps (fail e : Run α) := fun _ => rfl

theorem keeps_ofExcept {ε : Type} (g : ε → Failure) (result : Except ε α) :
    Keeps (ofExcept g result) := by
  cases result with
  | error e => exact keeps_fail _
  | ok a => exact keeps_pure a

theorem keeps_tree : Keeps tree := fun _ => rfl

theorem keeps_print (stream : Stream) (b : Block) : Keeps (print stream b) := by
  intro s
  rw [print, on_get_bind]
  cases b.lines s.console with
  | error e => rfl
  | ok lines =>
    cases stream with
    | out => rfl
    | err => rfl

theorem keeps_printAll (stream : Stream) (blocks : List Block) : Keeps (printAll stream blocks) := by
  induction blocks with
  | nil => exact keeps_pure ()
  | cons b rest ih =>
    exact (keeps_print stream b).bind fun _ => ih

theorem keeps_say (stream : Stream) (markup : String) : Keeps (say stream markup) :=
  keeps_print stream _

theorem keeps_activity {a : Activity α} (ha : Activity.Respects (· = ·) a) : Keeps (activity a) := by
  intro s
  have htree := ha s.world
  rw [on_activity]
  rcases hon : a.on s.world with ⟨_ | _, w⟩
  · rw [hon] at htree
    exact htree.symm
  · rw [hon] at htree
    exact htree.symm

/-- A run that does not end by a failure. It may end with an exit code. -/
def NeverFails (x : Run α) : Prop := ∀ s e, (x.on s).1 ≠ .error (.failed e)

theorem NeverFails.bind (hx : NeverFails x) (hf : ∀ a, NeverFails (f a)) : NeverFails (x >>= f) := by
  intro s e he
  rw [on_bind] at he
  rcases hon : x.on s with ⟨stop | a, s₁⟩
  · rw [hon] at he
    cases he
    exact hx s e (by rw [hon])
  · rw [hon] at he
    exact hf a s₁ e he

theorem neverFails_print (stream : Stream) (b : Block) : NeverFails (print stream b) := by
  intro s e he
  rw [print, on_get_bind] at he
  cases hlines : b.lines s.console with
  | error cause =>
    rw [hlines] at he
    cases he
  | ok lines =>
    rw [hlines] at he
    cases he

theorem neverFails_say (stream : Stream) (markup : String) : NeverFails (say stream markup) :=
  neverFails_print stream _

end SchemaCompiler.CommandLine.Run
