import SchemaCompiler.Proofs.Terminal.Inert
import SchemaCompiler.Terminal.Report

/-!
When reports are printed. All that the diagnostics of a report have from a document stands in messages,
paths and suggestions, and a report is printed in both forms if these close no style.
-/
namespace SchemaCompiler

open Markup
open Text (bind_ok bind_eq_ok_iff mapM_ok mapM_eq_ok_iff exists_right_of_mem)

/-- The texts with markup in a block. -/
def Content.texts : Content → List String
  | .plain _ => []
  | .markup s => [s]

def Grid.texts (g : Grid) : List String :=
  g.title :: ((if g.headed then [g.columns.map (·.heading)] else []) ++ g.rows).flatten

def Block.texts : Block → List String
  | .paragraph content => content.texts
  | .panel _ content => content.texts
  | .grid g => g.texts

/-- A block that can be printed, wherever that is. -/
def Block.Printable (b : Block) : Prop := ∀ c, ∃ lines, b.lines c = .ok lines

section Printable

variable {content : Content} {g : Grid} {b : Block}

theorem Content.exists_text_iff (e : Emoji) :
    (∃ v, content.text e = .ok v) ↔ ∀ s ∈ content.texts, Readable s := by
  cases content with
  | plain s => exact iff_of_true ⟨_, rfl⟩ (fun _ h => absurd h List.not_mem_nil)
  | markup s => exact (readable_iff e).symm.trans List.forall_mem_singleton.symm

theorem Grid.exists_lines_iff (c : Console) :
    (∃ lines, g.lines c = .ok lines) ↔ ∀ s ∈ g.texts, Readable s := by
  rw [texts, List.forall_mem_cons, List.forall_mem_flatten]
  constructor
  · rintro ⟨_, h⟩
    obtain ⟨_, htitle, h⟩ := bind_eq_ok_iff.mp h
    obtain ⟨_, hrows, _⟩ := bind_eq_ok_iff.mp h
    refine ⟨(readable_iff c.emoji).mpr ⟨_, htitle⟩, fun row hrow s hs => ?_⟩
    obtain ⟨_, _, hcells⟩ := exists_right_of_mem (mapM_eq_ok_iff.mp hrows) hrow
    obtain ⟨v, _, hv⟩ := exists_right_of_mem (mapM_eq_ok_iff.mp hcells) hs
    exact (readable_iff c.emoji).mpr ⟨v, hv⟩
  · rintro ⟨htitle, hrows⟩
    refine bind_ok ((readable_iff c.emoji).mp htitle) fun _ => bind_ok ?_ fun _ => ⟨_, rfl⟩
    exact mapM_ok fun row hrow => mapM_ok fun s hs => (readable_iff c.emoji).mp (hrows row hrow s hs)

theorem Block.exists_lines_iff (c : Console) :
    (∃ lines, b.lines c = .ok lines) ↔ ∀ s ∈ b.texts, Readable s := by
  cases b with
  | paragraph content =>
    rw [texts, ← Content.exists_text_iff c.emoji]
    exact ⟨fun ⟨_, h⟩ => (bind_eq_ok_iff.mp h).imp fun _ h => h.1, fun h => bind_ok h fun _ => ⟨_, rfl⟩⟩
  | panel title content =>
    rw [texts, ← Content.exists_text_iff c.emoji]
    exact ⟨fun ⟨_, h⟩ => (bind_eq_ok_iff.mp h).imp fun _ h => h.1, fun h => bind_ok h fun _ => ⟨_, rfl⟩⟩
  | grid g => exact Grid.exists_lines_iff c

theorem Block.printable_iff : b.Printable ↔ ∀ s ∈ b.texts, Readable s :=
  ⟨fun h => (exists_lines_iff ⟨0, .none⟩).mp (h _), fun h c => (exists_lines_iff c).mpr h⟩

/-- A block that can be printed on one console can be printed on all. -/
theorem Block.printable_of_lines {c : Console} {lines : List String} (h : b.lines c = .ok lines) :
    b.Printable := printable_iff.mpr ((exists_lines_iff c).mp ⟨lines, h⟩)

theorem Block.printable_markup {s : String} (h : Readable s) :
    (Block.paragraph (.markup s)).Printable := printable_iff.mpr (List.forall_mem_singleton.mpr h)

theorem Block.printable_grid (htitle : Readable g.title)
    (hcolumns : ∀ c ∈ g.columns, Readable c.heading)
    (hrows : ∀ row ∈ g.rows, ∀ cell ∈ row, Readable cell) : (Block.grid g).Printable := by
  rw [printable_iff, texts, Grid.texts, List.forall_mem_cons, List.forall_mem_flatten]
  refine ⟨htitle, List.forall_mem_append.mpr ⟨?_, hrows⟩⟩
  split
  · exact List.forall_mem_singleton.mpr (List.forall_mem_map.mpr hcolumns)
  · exact nofun

theorem Block.readable_of_printable_grid (h : (Block.grid g).Printable) {row : List String}
    (hrow : row ∈ g.rows) {cell : String} (hcell : cell ∈ row) : Readable cell :=
  printable_iff.mp h cell (List.mem_cons_of_mem _ (List.mem_flatten.mpr
    ⟨row, List.mem_append_right _ hrow, hcell⟩))

end Printable

theorem Severity.label_free (s : Severity) :
    '[' ∉ s.label.toList ∧ s.label.toList.getLast? ≠ some '\\' := by
  cases s <;> decide

/-- The texts of a diagnostic as they are printed. -/
def Diagnostic.texts (d : Diagnostic) : List String :=
  s!"[{d.code}]" :: d.message :: (d.path.toList ++ d.suggestion.toList)

/-- No text of a diagnostic closes a style. -/
def Diagnostic.IsFree (d : Diagnostic) : Prop := ∀ s ∈ d.texts, ¬ Closes s.toList

instance : DecidablePred Diagnostic.IsFree := fun d =>
  inferInstanceAs (Decidable (∀ s ∈ d.texts, ¬ Closes s.toList))

namespace Diagnostic

variable {d : Diagnostic} {color : String}

/-- A style for the texts of a diagnostic, also in bold type. -/
structure IsColor (color : String) : Prop where
  opens : Opens color.toList
  bold : Opens (color ++ " bold").toList
  plain : '\\' ∉ color.toList ∧ ':' ∉ color.toList

theorem isColor_red : IsColor "red" :=
  ⟨⟨by decide, by decide, by decide⟩, ⟨by decide, by decide, by decide⟩, by decide⟩

theorem isColor_yellow : IsColor "yellow" :=
  ⟨⟨by decide, by decide, by decide⟩, ⟨by decide, by decide, by decide⟩, by decide⟩

theorem isColor_severity (s : Severity) : IsColor (if s == .error then "red" else "yellow") := by
  split
  · exact isColor_red
  · exact isColor_yellow

/-- The first sentence of a diagnostic with its markup. -/
def head (d : Diagnostic) (color : String) : String :=
  let label := s!"[{color} bold]{d.severity.label}[/{color} bold]"
  s!"{label} [{color}]\\[{d.code}][/{color}] {d.message}"

theorem toList_head (d : Diagnostic) (color : String) : (d.head color).toList =
    '[' :: ((color ++ " bold").toList ++ ']' :: (d.severity.label.toList ++
      '[' :: ('/' :: (color ++ " bold").toList ++ ']' :: ([' '] ++
      '[' :: (color.toList ++ ']' :: ('\\' :: '[' :: (d.code.toList ++ [']'] ++
      '[' :: ('/' :: color.toList ++ ']' :: ([' '] ++ d.message.toList))))))))) := by
  let label := s!"[{color} bold]{d.severity.label}[/{color} bold]"
  have hhead : d.head color = s!"{label} [{color}]\\[{d.code}][/{color}] {d.message}" := rfl
  rw [hhead]
  simp [label, toString]

theorem not_closes_label (s : Severity) : ¬ Closes s.label.toList :=
  fun h => s.label_free.1 (h.subset (by decide))

theorem IsFree.code (h : d.IsFree) : ¬ Closes ('[' :: (d.code.toList ++ [']'])) := by
  have hcode := h s!"[{d.code}]" List.mem_cons_self
  simpa [toString] using hcode

theorem IsFree.message (h : d.IsFree) : ¬ Closes d.message.toList :=
  h d.message (List.mem_cons_of_mem _ List.mem_cons_self)

theorem IsFree.path (h : d.IsFree) {path : String} (hpath : d.path = some path) :
    ¬ Closes path.toList := by
  refine h path ?_
  simp [texts, hpath]

theorem IsFree.suggestion (h : d.IsFree) {hint : String} (hhint : d.suggestion = some hint) :
    ¬ Closes hint.toList := by
  refine h hint ?_
  simp [texts, hhint]

/-- The first line of a diagnostic has two texts in a style before the message. -/
theorem readable_head (h : d.IsFree) (hcolor : IsColor color) : Readable (d.head color) := by
  have hmessage : ¬ Closes (' ' :: d.message.toList) := by
    rw [closes_cons (by decide)]
    exact h.message
  have hcode : ¬ Closes ('\\' :: '[' :: (d.code.toList ++ [']'])) := by
    rw [closes_cons (by decide)]
    exact h.code
  obtain ⟨p₁, hlabel⟩ := Page.readText_styled [] hcolor.bold (by decide) (by decide)
    (not_closes_label d.severity) .empty (' ' :: '[' :: (color.toList ++ ']' ::
      ('\\' :: '[' :: (d.code.toList ++ [']']) ++ '[' :: ('/' :: color.toList ++ ']' ::
        ' ' :: d.message.toList))))
  obtain ⟨p₂, hmiddle⟩ := Page.readText_styled [' '] hcolor.opens (by decide) (by decide)
    hcode p₁ (' ' :: d.message.toList)
  obtain ⟨p₃, hend⟩ := Page.readText_free hmessage p₂
  refine readable_of_readText (p := p₃) ?_
  rw [← hend, ← hmiddle]
  refine Eq.trans (congrArg _ ?_) hlabel
  simp [toList_head]

/-- What has been read of the first sentence of a diagnostic before its code. The tags around the severity
leave it and the blank behind it as pieces by themselves. -/
def headPage (d : Diagnostic) (color : String) : Page :=
  ⟨[Page.styleName color.toList], [], [[' '], d.severity.label.toList.reverse, []]⟩

theorem seen_headPage (d : Diagnostic) (color : String) :
    (d.headPage color).seen = (d.severity.label.toList ++ [' ']).reverse := by
  simp [headPage, Page.seen]

theorem readText_head (d : Diagnostic) (hcolor : IsColor color) :
    Page.empty.readText (d.head color).toList =
      (d.headPage color).readText ('\\' :: '[' :: (d.code.toList ++ [']'] ++
        '[' :: ('/' :: color.toList ++ ']' :: ([' '] ++ d.message.toList)))) := by
  obtain ⟨hfree, hlast⟩ := d.severity.label_free
  have hpage : ((((Page.empty.put []).after [Page.styleName (color ++ " bold").toList]).put
      d.severity.label.toList).after [] |>.put [' ']).after [Page.styleName color.toList] =
      d.headPage color := by
    simp [headPage, Page.put, Page.after, Page.cut, Page.empty]
  rw [toList_head, ← List.nil_append ('[' :: _),
    Page.readText_opening (by simp) (by simp) hcolor.bold,
    Page.readText_closing hfree hlast hcolor.bold.bare rfl,
    Page.readText_opening (by decide) (by decide) hcolor.opens]
  exact congrArg (Page.readText · _) hpage

/-- The severity of a diagnostic in the cell of a grid. -/
theorem readable_severity (severity : Severity) :
    let color := if severity == .error then "red" else "yellow"
    Readable s!"[{color}]{severity.label}[/{color}]" :=
  readable_of_styled [] [] (isColor_severity severity).opens (by decide) (by decide)
    (not_closes_label severity) (by decide) (by simp [toString])

theorem readable_place {path : String} (h : ¬ Closes path.toList) :
    Readable s!"  [dim]at {path}[/dim]" := by
  have hbody : ¬ Closes ("at ".toList ++ path.toList) := by
    rw [closes_append (by decide)]
    exact h
  have htag : Opens "dim".toList := ⟨by decide, by decide, by decide⟩
  exact readable_of_styled [' ', ' '] [] htag (by decide) (by decide) hbody (by decide)
    (by simp [toString])

theorem readable_hint {hint : String} (h : ¬ Closes hint.toList) :
    Readable s!"  [green]💡 {hint}[/green]" := by
  have hbody : ¬ Closes ("💡 ".toList ++ hint.toList) := by
    rw [closes_append (by decide)]
    exact h
  have htag : Opens "green".toList := ⟨by decide, by decide, by decide⟩
  exact readable_of_styled [' ', ' '] [] htag (by decide) (by decide) hbody (by decide)
    (by simp [toString])

theorem printable_page (h : d.IsFree) (hcolor : IsColor color) :
    ∀ b ∈ d.page color, b.Printable := by
  intro b hb
  obtain ⟨s, hs, rfl⟩ := List.mem_map.mp hb
  refine Block.printable_markup ?_
  rcases List.mem_append.mp hs with hs | hs
  · rcases List.mem_cons.mp hs with rfl | hs
    · exact readable_head h hcolor
    · split at hs
      · next path hpath =>
        rw [List.mem_singleton.mp hs]
        exact readable_place (h.path hpath)
      · cases hs
  · split at hs
    · next hint hhint =>
      split at hs
      · cases hs
      · rw [List.mem_singleton.mp hs]
        exact readable_hint (h.suggestion hhint)
    · cases hs

end Diagnostic

namespace Report

variable {r : Report}

/-- No diagnostic of a report closes a style. -/
def IsFree (r : Report) : Prop := ∀ d ∈ r.diagnostics, d.IsFree

instance : DecidablePred IsFree := fun r => inferInstanceAs (Decidable (∀ d ∈ r.diagnostics, d.IsFree))

theorem IsFree.printable_page (h : r.IsFree) (source : Option String) :
    ∀ b ∈ r.page source, b.Printable := by
  intro b hb
  rw [page] at hb
  split at hb
  · rw [List.mem_singleton.mp hb]
    have htag : Opens "green".toList := ⟨by decide, by decide, by decide⟩
    have hbody : ¬ Closes "✓ No schema problems found".toList := by decide
    exact Block.printable_markup
      (readable_of_styled [] [] htag (by decide) (by decide) hbody (by decide) (by simp))
  · rcases List.mem_append.mp hb with hb | hb
    · rcases List.mem_cons.mp hb with rfl | hb
      · exact fun _ => ⟨_, rfl⟩
      · obtain ⟨d, hd, hb⟩ := List.mem_flatMap.mp hb
        exact Diagnostic.printable_page (h d (List.mem_of_mem_filter hd)) Diagnostic.isColor_red b hb
    · obtain ⟨d, hd, hb⟩ := List.mem_flatMap.mp hb
      exact Diagnostic.printable_page (h d (List.mem_of_mem_filter hd)) Diagnostic.isColor_yellow b hb

theorem IsFree.printable_grid (h : r.IsFree) : r.grid.Printable := by
  have htitle : Readable "Schema Diagnostics" := readable_of_free (by decide)
  have hheadings : ∀ heading ∈ ["Code", "Severity", "Location", "Message"],
      ¬ Closes heading.toList := by decide
  refine Block.printable_grid htitle (fun c hc => readable_of_free ?_) fun row hrow cell hcell => ?_
  · exact hheadings c.heading (List.mem_map_of_mem hc)
  · obtain ⟨d, hd, rfl⟩ := List.mem_map.mp hrow
    have hfree := h d hd
    simp only [List.mem_cons, List.not_mem_nil, or_false] at hcell
    rcases hcell with rfl | rfl | rfl | rfl
    · refine readable_of_free fun hcode => hfree.code ?_
      exact hcode.trans ⟨['['], [']'], rfl⟩
    · exact Diagnostic.readable_severity d.severity
    · cases hpath : d.path with
      | none => exact readable_of_free (by decide)
      | some path => exact readable_of_free (hfree.path hpath)
    · exact readable_of_free hfree.message

end Report

end SchemaCompiler
