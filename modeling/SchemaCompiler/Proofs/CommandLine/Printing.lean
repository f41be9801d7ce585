import SchemaCompiler.CommandLine.Run
import SchemaCompiler.Proofs.CommandLine.Sessions
import SchemaCompiler.Proofs.Files.Paths
import SchemaCompiler.Proofs.Terminal.Reports

/-!
What a generation run prints. Printing changes nothing but the streams, and ends the run where a text
closes a style that is not open. Names of files cannot do that, since they have no slash.
-/
namespace SchemaCompiler.CommandLine

open Markup

namespace Run

variable {x y : Run Unit} {p q : Prop}

/-- A run that prints and does nothing else, on whatever console. It goes through if all is printable. -/
def Prints (printable : Prop) (x : Run Unit) : Prop :=
  ∀ s, (printable ∧ ∃ s', x.on s = (.ok (), s') ∧ s'.world = s.world) ∨
    (¬ printable ∧ ∃ s', x.on s = (.error (.exit 1), s') ∧ s'.world = s.world)

theorem Prints.bind (hx : Prints p x) (hy : Prints q y) : Prints (p ∧ q) (x >>= fun _ => y) := by
  intro s
  rw [on_bind]
  rcases hx s with ⟨hp, s₁, hon, hworld⟩ | ⟨hp, s₁, hon, hworld⟩
  · rw [hon]
    rcases hy s₁ with ⟨hq, s₂, hmore, hsame⟩ | ⟨hq, s₂, hmore, hsame⟩
    · exact .inl ⟨⟨hp, hq⟩, s₂, hmore, hsame.trans hworld⟩
    · exact .inr ⟨fun h => hq h.2, s₂, hmore, hsame.trans hworld⟩
  · rw [hon]
    exact .inr ⟨fun h => hp h.1, s₁, rfl, hworld⟩

theorem Prints.congr (hx : Prints p x) (h : p ↔ q) : Prints q x := propext h ▸ hx

theorem prints_print (stream : Stream) (b : Block) : Prints b.Printable (print stream b) := by
  intro s
  rw [print, on_get_bind]
  cases hlines : b.lines s.console with
  | error e =>
    refine .inr ⟨fun hprintable => ?_, s, rfl, rfl⟩
    obtain ⟨lines, hok⟩ := hprintable s.console
    rw [hlines] at hok
    cases hok
  | ok lines =>
    refine .inl ⟨Block.printable_of_lines hlines, ?_⟩
    cases stream with
    | out => exact ⟨_, rfl, rfl⟩
    | err => exact ⟨_, rfl, rfl⟩

theorem prints_printAll (stream : Stream) (blocks : List Block) :
    Prints (∀ b ∈ blocks, b.Printable) (printAll stream blocks) := by
  induction blocks with
  | nil => exact fun s => .inl ⟨nofun, s, rfl, rfl⟩
  | cons b rest ih =>
    exact ((prints_print stream b).bind ih).congr List.forall_mem_cons.symm

end Run

open Run

/-- How a report is shown in one of the formats. -/
def shownReport (format : Format) (schemas : Path) (r : Report) : List Block :=
  match format with
  | .grid => [r.grid]
  | .text => r.page (some schemas.text)

theorem prints_showReport (format : Format) (schemas : Path) (r : Report) :
    Prints (∀ b ∈ shownReport format schemas r, b.Printable) (showReport format schemas r) := by
  cases format with
  | grid => exact (prints_print .err r.grid).congr List.forall_mem_singleton.symm
  | text => exact prints_printAll .err _

/-- There is nothing to print, or it can be printed. -/
def CanShow (format : Format) (schemas : Path) (r : Report) : Prop :=
  r.diagnostics ≠ [] → ∀ b ∈ shownReport format schemas r, b.Printable

theorem canShow_of_free {r : Report} (h : r.IsFree) (format : Format) (schemas : Path) :
    CanShow format schemas r := by
  intro _
  cases format with
  | grid => exact List.forall_mem_singleton.mpr h.printable_grid
  | text => exact h.printable_page _

theorem not_closes_name {path : Path} (h : path.IsSplit) : ¬ Closes path.name.toList :=
  fun hcloses => h.no_slash_name hcloses.slash

/-- The text on what was read holds the name of a file, and such a name has no slash. -/
theorem readable_parsed {path : Path} (h : path.IsSplit) (n : Nat) :
    Readable s!"[green]✓ Parsed {n} schemas from {path.name}[/green]" := by
  have hbody : ¬ Closes ("✓ Parsed ".toList ++ (toString n).toList ++ " schemas from ".toList ++
      path.name.toList) := by
    rw [closes_append]
    · exact not_closes_name h
    · simp only [List.mem_append, not_or]
      exact ⟨⟨by decide, not_mem_toString n⟩, by decide⟩
  have htag : Opens "green".toList := ⟨by decide, by decide, by decide⟩
  exact readable_of_styled [] [] htag (by decide) (by decide) hbody (by decide) (by simp [toString])

/-- The last text of a run holds the name of the output folder. -/
theorem readable_done {folder : Path} (h : ¬ Closes folder.text.toList) :
    Readable s!"\n[bold green]✓ Generated code in {folder.text}[/bold green]\n" := by
  have hbody : ¬ Closes ("✓ Generated code in ".toList ++ folder.text.toList) := by
    rw [closes_append (by decide)]
    exact h
  have htag : Opens "bold green".toList := ⟨by decide, by decide, by decide⟩
  exact readable_of_styled ['\n'] ['\n'] htag (by decide) (by decide) hbody (by decide)
    (by simp [toString])

theorem readable_count (n : Nat) : Readable (toString n) := by
  refine readable_of_free ?_
  rw [← List.append_nil (toString n).toList, closes_append (not_mem_toString n)]
  decide

theorem readable_title {t : Target} {name : String} (h : Target.find? name = some t) :
    Readable s!"Generated {t.description}" := by
  have hfree : ∀ t ∈ Target.all, ¬ Closes (s!"Generated {t.description}").toList := by decide
  exact readable_of_free (hfree t (List.mem_of_find?_eq_some h))

theorem mode_name_free (m : Mode) : ¬ Closes m.name.toList := by
  cases m <;> decide

theorem printable_outcome {t : Target} {name : String} {done : Generation.Outcome}
    (htarget : Target.find? name = some t) (hfolder : ¬ Closes done.folder.text.toList)
    (hskipped : ∀ p ∈ done.skipped, p.IsSplit) : (outcomeGrid t done).Printable := by
  have hheadings : ∀ heading ∈ ["Property", "Value"], ¬ Closes heading.toList := by decide
  refine Block.printable_grid (readable_title htarget)
    (fun c hc => readable_of_free (hheadings c.heading (List.mem_map_of_mem hc)))
    fun row hrow cell hcell => ?_
  rcases List.mem_append.mp hrow with hrow | hrow
  · simp only [List.mem_cons, List.not_mem_nil, or_false] at hrow
    rcases hrow with rfl | rfl | rfl | rfl
    all_goals
      simp only [List.mem_cons, List.not_mem_nil, or_false] at hcell
      rcases hcell with rfl | rfl
    · exact readable_of_free (by decide)
    · exact readable_of_free hfolder
    · exact readable_of_free (by decide)
    · exact readable_of_free (mode_name_free done.mode)
    · exact readable_of_free (by decide)
    · exact readable_count _
    · exact readable_of_free (by decide)
    · exact readable_count _
  · obtain ⟨p, hp, rfl⟩ := List.mem_map.mp hrow
    simp only [List.mem_cons, List.not_mem_nil, or_false] at hcell
    rcases hcell with rfl | rfl
    · exact readable_of_free (by decide)
    · exact readable_of_free (not_closes_name (hskipped p hp))

theorem prints_showFound (o : GenerateOptions) (r : Report) :
    Prints (CanShow o.format o.schemas r) (showFound o r) := by
  rw [showFound, CanShow]
  cases hempty : r.diagnostics with
  | nil => exact fun s => .inl ⟨fun h => absurd rfl h, s, rfl, rfl⟩
  | cons d rest =>
    refine (prints_showReport o.format o.schemas r).congr ?_
    exact ⟨fun h _ => h, fun h => h (List.cons_ne_nil _ _)⟩

end SchemaCompiler.CommandLine
