import SchemaCompiler.Proofs.CommandLine.Admitted
import SchemaCompiler.Proofs.Terminal.Codes

/-!
What runs leave on the error stream. No step takes a line away, so what a run has printed is there when
the program ends, however it ends. Blocks are printed one after another, up to the first one that cannot
be printed.
-/
namespace SchemaCompiler

open Text (mapM_eq_ok_iff exists_right_of_mem)

theorem Diagnostic.IsNamedIn.mono {d : Diagnostic} {lines more : List String} (h : d.IsNamedIn lines)
    (hmore : lines ⊆ more) : d.IsNamedIn more := by
  obtain ⟨line, hline, hcode⟩ := h
  exact ⟨line, hmore hline, hcode⟩

namespace CommandLine

variable {console : Console} {b : Block} {blocks : List Block} {lines rest : List String}

/-- The lines that blocks are printed as on a console, one block after another. -/
def PrintedAs (console : Console) (blocks : List Block) (lines : List String) : Prop :=
  ∃ parts, blocks.mapM (Block.lines console) = .ok parts ∧ lines = parts.flatten

theorem PrintedAs.cons (hb : b.lines console = .ok lines) (h : PrintedAs console blocks rest) :
    PrintedAs console (b :: blocks) (lines ++ rest) := by
  obtain ⟨parts, hparts, rfl⟩ := h
  exact ⟨lines :: parts, mapM_eq_ok_iff.mpr (.cons hb (mapM_eq_ok_iff.mp hparts)), rfl⟩

theorem PrintedAs.named {d : Diagnostic} (h : PrintedAs console blocks lines) (hb : b ∈ blocks)
    (hnames : b.Names console d) : d.IsNamedIn lines := by
  obtain ⟨parts, hparts, rfl⟩ := h
  obtain ⟨part, hpart, hlines⟩ := exists_right_of_mem (mapM_eq_ok_iff.mp hparts) hb
  exact (hnames part hlines).mono fun line hline => List.mem_flatten.mpr ⟨part, hpart, hline⟩

theorem PrintedAs.printable (h : PrintedAs console blocks lines) : ∀ b ∈ blocks, b.Printable := by
  intro b hb
  obtain ⟨parts, hparts, _⟩ := h
  obtain ⟨part, _, hlines⟩ := exists_right_of_mem (mapM_eq_ok_iff.mp hparts) hb
  exact Block.printable_of_lines hlines

/-- Blocks of which only the first ones are printed, since the next one cannot be. -/
def BreaksOff (console : Console) (blocks : List Block) (lines : List String) : Prop :=
  ∃ before b after, blocks = before ++ b :: after ∧ ¬ b.Printable ∧ PrintedAs console before lines

theorem BreaksOff.cons (hb : b.lines console = .ok lines) (h : BreaksOff console blocks rest) :
    BreaksOff console (b :: blocks) (lines ++ rest) := by
  obtain ⟨before, stray, after, rfl, hstray, hbefore⟩ := h
  exact ⟨b :: before, stray, after, rfl, hstray, hbefore.cons hb⟩

theorem BreaksOff.not_printable (h : BreaksOff console blocks lines) : ¬ ∀ b ∈ blocks, b.Printable := by
  obtain ⟨before, stray, after, rfl, hstray, _⟩ := h
  exact fun hall => hstray (hall stray (List.mem_append_right _ List.mem_cons_self))

/-- The session with more lines on the error stream. -/
def Session.told (s : Session) (lines : List String) : Session := { s with err := s.err ++ lines }

namespace Run

variable {α β : Type} {x : Run α} {f : α → Run β}

/-- A run that only adds to the error stream. -/
def Grows (x : Run α) : Prop := ∀ s, s.err <+: (x.on s).2.err

theorem Grows.bind (hx : Grows x) (hf : ∀ a, Grows (f a)) : Grows (x >>= f) :=
  rel_bind (fun s s' => s.err <+: s'.err) (fun _ _ _ hfirst hnext => hfirst.trans hnext) hx hf

theorem grows_pure (a : α) : Grows (pure a) := fun _ => List.prefix_rfl

theorem grows_fail (e : Failure) : Grows (fail e : Run α) := fun _ => List.prefix_rfl

theorem grows_print (stream : Stream) (b : Block) : Grows (print stream b) := by
  intro s
  rw [print, on_get_bind]
  cases b.lines s.console with
  | error e => exact List.prefix_rfl
  | ok lines =>
    cases stream with
    | out => exact List.prefix_rfl
    | err => exact List.prefix_append _ _

theorem grows_say (stream : Stream) (markup : String) : Grows (say stream markup) :=
  grows_print stream _

theorem grows_activity (a : Activity α) : Grows (activity a) := by
  intro s
  rw [on_activity]
  rcases a.on s.world with ⟨_ | _, w⟩
  · exact List.prefix_rfl
  · exact List.prefix_rfl

theorem on_print {s : Session} (h : b.lines s.console = .ok lines) :
    (print .err b).on s = (.ok (), s.told lines) := by
  rw [print, on_get_bind, h]
  rfl

theorem on_print_stray (h : ¬ b.Printable) (s : Session) :
    (print .err b).on s = (.error (.exit 1), s) := by
  rw [print, on_get_bind]
  cases hlines : b.lines s.console with
  | error e => rfl
  | ok lines => exact absurd (Block.printable_of_lines hlines) h

/-- Blocks are printed to the end, or up to the first one that cannot be printed. -/
theorem on_printAll (blocks : List Block) (s : Session) : ∃ lines,
    PrintedAs s.console blocks lines ∧ (printAll .err blocks).on s = (.ok (), s.told lines) ∨
      BreaksOff s.console blocks lines ∧
        (printAll .err blocks).on s = (.error (.exit 1), s.told lines) := by
  induction blocks generalizing s with
  | nil => exact ⟨[], .inl ⟨⟨[], rfl, rfl⟩, by simp [printAll, Session.told]; rfl⟩⟩
  | cons b blocks ih =>
    have hnext : printAll .err (b :: blocks) = print .err b >>= fun _ => printAll .err blocks := rfl
    rw [hnext]
    by_cases hb : b.Printable
    · obtain ⟨lines, hlines⟩ := hb s.console
      have htold (rest : List String) : (s.told lines).told rest = s.told (lines ++ rest) := by
        rw [Session.told, Session.told, Session.told, List.append_assoc]
      rw [on_bind_ok (on_print hlines)]
      obtain ⟨rest, ⟨hrest, hon⟩ | ⟨hrest, hon⟩⟩ := ih (s.told lines)
      · exact ⟨lines ++ rest, .inl ⟨hrest.cons hlines, htold rest ▸ hon⟩⟩
      · exact ⟨lines ++ rest, .inr ⟨hrest.cons hlines, htold rest ▸ hon⟩⟩
    · rw [on_bind_error (on_print_stray hb s)]
      refine ⟨[], .inr ⟨⟨[], b, blocks, rfl, hb, [], rfl, rfl⟩, ?_⟩⟩
      rw [Session.told, List.append_nil]

end Run

open Run

variable {t : FileTree} {words : List String} {c : Command} {s : Session}

/-- When a command fails, the failure is shown after all that the command has printed. -/
theorem run_of_failed {e : Failure} (hwords : Command.ofWords t words = .ok c)
    (h : c.run.on (.start console t) = (.error (.failed e), s)) :
    ∃ result, run console t words = .ok result ∧ result.code = 1 ∧ s.err <+: result.session.err := by
  obtain ⟨lines, hshown⟩ : ∃ lines, (printAll .err (e.page c.verbose) >>= fun _ => exit 1).on s =
      ((.error (.exit 1), s.told lines) : Except Stop Unit × Session) := by
    obtain ⟨lines, ⟨_, hon⟩ | ⟨_, hon⟩⟩ := on_printAll (e.page c.verbose) s
    · exact ⟨lines, on_bind_ok hon _⟩
    · exact ⟨lines, on_bind_error hon _⟩
  have hon : c.runShown.on (.start console t) = (.error (.exit 1), s.told lines) := by
    rw [Command.runShown, on_tryCatch, h]
    exact hshown
  exact ⟨_, run_of_shown hwords hon, rfl, List.prefix_append _ _⟩

/-- What a command has printed on the error stream is there when the program ends. -/
theorem exists_run (hwords : Command.ofWords t words = .ok c) :
    ∃ result, run console t words = .ok result ∧
      (c.run.on (.start console t)).2.err <+: result.session.err := by
  rcases hon : c.run.on (.start console t) with ⟨(e | code) | _, s⟩
  · obtain ⟨result, hrun, _, herr⟩ := run_of_failed hwords hon
    exact ⟨result, hrun, herr⟩
  · obtain ⟨log, hrun⟩ := run_of_exit hwords hon
    exact ⟨_, hrun, List.prefix_rfl⟩
  · obtain ⟨log, hrun⟩ := run_of_ok hwords hon
    exact ⟨_, hrun, List.prefix_rfl⟩

end CommandLine
end SchemaCompiler
