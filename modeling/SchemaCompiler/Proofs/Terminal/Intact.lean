import SchemaCompiler.Proofs.Terminal.Reports
import SchemaCompiler.Proofs.Terminal.Rows
import SchemaCompiler.Proofs.Terminal.Shown

/-!
Reports that are shown intact. Both forms of a report say all texts of its diagnostics as they are just
when none of these has markup or the name of a picture in it. The text form then prints them whole on any
console, and the grid form as far as its columns have room there.
-/
namespace SchemaCompiler

open Markup
open Text (mapM_eq_ok_iff)

variable {e : Emoji} {console : Console}

/-- A paragraph that says a text, which is then folded into lines. -/
def Block.Says (e : Emoji) (b : Block) (s : String) : Prop := ∃ c, b = .paragraph c ∧ c.text e = .ok s

/-- A grid whose cells say some texts. -/
def Block.SaysRows (e : Emoji) (b : Block) (rows : List (List String)) : Prop :=
  ∃ g, b = .grid g ∧ List.Forall₂ (List.Forall₂ fun cell s => visible e cell = .ok s) g.rows rows

theorem Block.says_markup {s t : String} :
    (Block.paragraph (.markup s)).Says e t ↔ visible e s = .ok t := by
  constructor
  · rintro ⟨_, ⟨⟩, h⟩
    exact h
  · exact fun h => ⟨_, rfl, h⟩

theorem Block.Says.lines {b : Block} {s : String} (h : b.Says console.emoji s) :
    b.lines console = .ok (Terminal.wrap .fold console.width s) := by
  obtain ⟨c, rfl, htext⟩ := h
  rw [Block.lines, htext]
  rfl

/-- Lines that have all ink of a text, unless a character in it changes how wide its neighbour is. -/
def Terminal.Holds (lines : List String) (s : String) : Prop :=
  Separate s.toList → ink (lines.flatMap String.toList) = ink s.toList

section

variable {α β γ : Type} {R : β → γ → Prop} {f : α → List β} {g : α → List γ}

theorem forall₂_append {a b : List β} {a' b' : List γ} (hlength : a.length = a'.length) :
    List.Forall₂ R (a ++ b) (a' ++ b') ↔ List.Forall₂ R a a' ∧ List.Forall₂ R b b' := by
  refine ⟨fun h => ⟨?_, ?_⟩, fun h => List.rel_append h.1 h.2⟩
  · simpa [← hlength] using List.forall₂_take_append _ _ _ h
  · simpa [← hlength] using List.forall₂_drop_append _ _ _ h

theorem forall₂_flatMap (hlength : ∀ a, (f a).length = (g a).length) (l : List α) :
    List.Forall₂ R (l.flatMap f) (l.flatMap g) ↔ ∀ a ∈ l, List.Forall₂ R (f a) (g a) := by
  induction l with
  | nil => simp
  | cons a l ih =>
    rw [List.flatMap_cons, List.flatMap_cons, forall₂_append (hlength a), ih, List.forall_mem_cons]

end

namespace Diagnostic

variable {d : Diagnostic} {color : String}

/-- What the paragraphs of a diagnostic say: its severity, code and message, its place, and its
suggestion. An empty suggestion is not shown. -/
def sentences (d : Diagnostic) : List String :=
  s!"{d.severity.label} [{d.code}] {d.message}" ::
    (d.path.toList.map (s!"  at {·}") ++
      (d.suggestion.toList.filter (· != "")).map (s!"  💡 {·}"))

/-- What the cells of a diagnostic say. -/
def cells (d : Diagnostic) : List String :=
  [d.code, d.severity.label, d.path.getD "-", d.message]

/-- The texts of a diagnostic, each with the bracket behind it in its paragraph. -/
def bracketed (d : Diagnostic) : List String :=
  s!"{d.code}]" :: d.message :: (d.path.toList ++ d.suggestion.toList).map (s!"{·}[")

/-- The texts of a diagnostic, the code with its escaped bracket. -/
def marked (d : Diagnostic) : List String :=
  s!"\\[{d.code}]" :: d.message :: (d.path.toList ++ d.suggestion.toList)

/-- No text of a diagnostic has markup in it as it stands in its paragraph, and none has a name in it
that gives way to a picture. -/
structure IsInert (e : Emoji) (d : Diagnostic) : Prop where
  unmarked : ∀ s ∈ d.bracketed, Inert s.toList
  undrawn : ∀ s ∈ d.marked, Undrawn e s

/-- No text of a diagnostic has markup or the name of a picture in it, as it stands in its cell. -/
def HasInertCells (e : Emoji) (d : Diagnostic) : Prop := ∀ s ∈ d.cells, Inert s.toList ∧ Undrawn e s

/-- The first sentence of a diagnostic from its code on. -/
theorem shows_head (d : Diagnostic) (hcolor : IsColor color) :
    Page.empty.Shows (d.head color).toList
        (s!"{d.severity.label} [{d.code}] {d.message}").toList ↔
      Inert (d.code.toList ++ [']'] ++ ['[']) ∧ Inert ([' '] ++ d.message.toList) := by
  have hlabel : Inert (d.severity.label.toList ++ [' ']) := by
    cases d.severity <;> decide
  have htext : (s!"{d.severity.label} [{d.code}] {d.message}").toList =
      (d.severity.label.toList ++ [' ']) ++
        (['['] ++ (d.code.toList ++ [']'] ++ ([' '] ++ d.message.toList))) := by
    simp [toString]
  have hseen : (d.headPage color).seen =
      (d.severity.label.toList ++ [' ']).reverse ++ Page.empty.seen := by
    rw [d.seen_headPage, Page.seen_empty, List.append_nil]
  rw [htext, Page.shows_append (fun _ => Page.sees_congr (d.readText_head hcolor)) hseen hlabel,
    Page.shows_append (Page.sees_escaped _ _) (Page.seen_put _ ['[']) (by decide)]
  exact Page.shows_closing rfl hcolor.opens.bare hcolor.plain.1

/-- The names of pictures in the first sentence of a diagnostic lie in its code or in its message. -/
theorem undrawn_head (d : Diagnostic) (hcolor : IsColor color)
    (hcode : Inert (d.code.toList ++ [']'] ++ ['['])) (hmessage : Inert ([' '] ++ d.message.toList)) :
    Undrawn e (d.head color) ↔ Undrawn e s!"\\[{d.code}]" ∧ Undrawn e d.message := by
  have hfree : (d.headPage color).ColonFree := by
    cases hseverity : d.severity <;>
      simp [headPage, hseverity, Page.ColonFree, Severity.label]
  have hmarked : s!"\\[{d.code}]" = String.ofList ('\\' :: '[' :: (d.code.toList ++ [']'])) := by
    rw [← String.toList_inj]
    simp [toString]
  have hplain : Inert d.message.toList := (inert_append (by decide) (by decide) (by decide)).mp hmessage
  obtain ⟨q, hq, hundrawn⟩ := exists_page_escaped hfree rfl hcolor.opens.bare hcode hmessage
  rw [undrawn_of_page ((d.readText_head hcolor).trans hq), hundrawn, hmarked,
    Emoji.append_draw (by decide), List.append_cancel_left_eq, undrawn_iff hplain.toUnmarked]

theorem visible_head (d : Diagnostic) (hcolor : IsColor color) :
    visible e (d.head color) = .ok s!"{d.severity.label} [{d.code}] {d.message}" ↔
      (Inert (s!"{d.code}]").toList ∧ Inert d.message.toList) ∧
        Undrawn e s!"\\[{d.code}]" ∧ Undrawn e d.message := by
  have hcolons : (d.head color).toList.count ':' ≤
      (s!"{d.severity.label} [{d.code}] {d.message}").toList.count ':' := by
    have hnone := List.count_eq_zero.mpr hcolor.plain.2
    simp [toList_head, toString, hnone]
  have hcode : (s!"{d.code}]").toList = d.code.toList ++ [']'] := by simp [toString]
  have hbody : Inert (d.code.toList ++ [']'] ++ ['[']) ↔ Inert (d.code.toList ++ [']']) :=
    inert_bracket.trans (and_iff_left (by simp))
  have hmore : Inert ([' '] ++ d.message.toList) ↔ Inert d.message.toList :=
    inert_append (by decide) (by decide) (by decide)
  rw [visible_iff_shows hcolons, d.shows_head hcolor, hcode, ← hbody, ← hmore]
  exact and_congr_right fun h => d.undrawn_head hcolor h.1 h.2

theorem visible_place (path : String) :
    visible e s!"  [dim]at {path}[/dim]" = .ok s!"  at {path}" ↔
      Inert (s!"{path}[").toList ∧ Undrawn e path := by
  have htext : (s!"{path}[").toList = path.toList ++ ['['] := by simp [toString]
  have htag : Opens "dim".toList := ⟨by decide, by decide, by decide⟩
  have hblanks : Leads [' ', ' '] := ⟨by decide, by decide, by decide, by decide⟩
  have hlead : Leads "at ".toList := ⟨by decide, by decide, by decide, by decide⟩
  rw [htext]
  exact visible_styled htag (by decide) hblanks hlead (by simp [toString]) (by simp [toString])

theorem visible_hint (hint : String) :
    visible e s!"  [green]💡 {hint}[/green]" = .ok s!"  💡 {hint}" ↔
      Inert (s!"{hint}[").toList ∧ Undrawn e hint := by
  have htext : (s!"{hint}[").toList = hint.toList ++ ['['] := by simp [toString]
  have htag : Opens "green".toList := ⟨by decide, by decide, by decide⟩
  have hblanks : Leads [' ', ' '] := ⟨by decide, by decide, by decide, by decide⟩
  have hlead : Leads "💡 ".toList := ⟨by decide, by decide, by decide, by decide⟩
  rw [htext]
  exact visible_styled htag (by decide) hblanks hlead (by simp [toString]) (by simp [toString])

/-- The paragraphs of a diagnostic, beside its sentences. -/
theorem page_eq (d : Diagnostic) (color : String) : d.page color =
    (d.head color :: (d.path.toList.map (s!"  [dim]at {·}[/dim]") ++
      (d.suggestion.toList.filter (· != "")).map (s!"  [green]💡 {·}[/green]"))).map
        fun s => .paragraph (.markup s) := by
  rw [page]
  cases d.suggestion with
  | none => cases d.path <;> rfl
  | some hint =>
    by_cases hempty : hint = ""
    · subst hempty
      cases d.path <;> rfl
    · have hshown : (hint == "") = false := beq_false_of_ne hempty
      have hkept : [hint].filter (· != "") = [hint] :=
        List.filter_cons_of_pos (bne_iff_ne.mpr hempty)
      simp only [hshown, Option.toList_some, hkept]
      cases d.path <;> rfl

/-- The paragraphs of a diagnostic say its texts just when it is inert. -/
theorem says_page (d : Diagnostic) (hcolor : IsColor color) :
    List.Forall₂ (Block.Says e) (d.page color) d.sentences ↔ d.IsInert e := by
  have hempty {hint : String} (hnone : hint = "") : Inert (s!"{hint}[").toList ∧ Undrawn e hint := by
    subst hnone
    exact ⟨by decide, undrawn_of_bare (unmarked_of_free (by decide)) (by decide)⟩
  have hhints : (∀ hint ∈ d.suggestion.toList.filter (· != ""),
      Inert (s!"{hint}[").toList ∧ Undrawn e hint) ↔
      ∀ hint ∈ d.suggestion.toList, Inert (s!"{hint}[").toList ∧ Undrawn e hint := by
    refine ⟨fun h hint hmem => ?_, fun h hint hmem => h hint (List.mem_of_mem_filter hmem)⟩
    by_cases hnone : hint = ""
    · exact hempty hnone
    · exact h hint (List.mem_filter.mpr ⟨hmem, by simpa using hnone⟩)
  have hinert : d.IsInert e ↔ ((Inert (s!"{d.code}]").toList ∧ Inert d.message.toList) ∧
      Undrawn e s!"\\[{d.code}]" ∧ Undrawn e d.message) ∧
      (∀ path ∈ d.path.toList, Inert (s!"{path}[").toList ∧ Undrawn e path) ∧
      ∀ hint ∈ d.suggestion.toList, Inert (s!"{hint}[").toList ∧ Undrawn e hint := by
    constructor
    · rintro ⟨hunmarked, hundrawn⟩
      simp only [bracketed, marked, List.forall_mem_cons, List.forall_mem_map,
        List.forall_mem_append] at hunmarked hundrawn
      obtain ⟨hcode, hmessage, hpaths, hhints⟩ := hunmarked
      obtain ⟨hcode', hmessage', hpaths', hhints'⟩ := hundrawn
      exact ⟨⟨⟨hcode, hmessage⟩, hcode', hmessage'⟩, fun s hs => ⟨hpaths s hs, hpaths' s hs⟩,
        fun s hs => ⟨hhints s hs, hhints' s hs⟩⟩
    · rintro ⟨⟨⟨hcode, hmessage⟩, hcode', hmessage'⟩, hpaths, hhints⟩
      constructor
      · simp only [bracketed, List.forall_mem_cons, List.forall_mem_map, List.forall_mem_append]
        exact ⟨hcode, hmessage, fun s hs => (hpaths s hs).1, fun s hs => (hhints s hs).1⟩
      · simp only [marked, List.forall_mem_cons, List.forall_mem_append]
        exact ⟨hcode', hmessage', fun s hs => (hpaths s hs).2, fun s hs => (hhints s hs).2⟩
  rw [hinert, page_eq, List.forall₂_map_left_iff, sentences, List.forall₂_cons]
  simp only [Block.says_markup]
  rw [forall₂_append (by simp), List.forall₂_map_left_iff, List.forall₂_map_right_iff,
    List.forall₂_same, List.forall₂_map_left_iff, List.forall₂_map_right_iff, List.forall₂_same]
  simp only [visible_place, visible_hint, hhints]
  exact and_congr_left' (visible_head d hcolor)

/-- The severity of a diagnostic is seen as it is. -/
theorem visible_severity (severity : Severity) :
    let color := if severity == .error then "red" else "yellow"
    visible e s!"[{color}]{severity.label}[/{color}]" = .ok severity.label := by
  intro color
  have hcolor : IsColor color := isColor_severity severity
  have hnone : Leads [] := ⟨by decide, by decide, by decide, by decide⟩
  have hlabel : Inert (severity.label.toList ++ ['[']) ∧ ':' ∉ severity.label.toList := by
    cases severity <;> decide
  exact (visible_styled hcolor.opens hcolor.plain hnone hnone (by simp [toString]) rfl).mpr
    ⟨hlabel.1, undrawn_of_bare (inert_bracket.mp hlabel.1).1.toUnmarked hlabel.2⟩

/-- The cells of a diagnostic say its texts just when these are inert. -/
theorem says_cells (d : Diagnostic) :
    let color := if d.severity == .error then "red" else "yellow"
    List.Forall₂ (fun cell s => visible e cell = .ok s)
      [d.code, s!"[{color}]{d.severity.label}[/{color}]", d.path.getD "-", d.message] d.cells ↔
      d.HasInertCells e := by
  intro color
  have hlabel : Inert d.severity.label.toList ∧ ':' ∉ d.severity.label.toList := by
    cases d.severity <;> decide
  have hundrawn : Undrawn e d.severity.label := undrawn_of_bare hlabel.1.toUnmarked hlabel.2
  have hseverity : visible e s!"[{color}]{d.severity.label}[/{color}]" = .ok d.severity.label :=
    visible_severity d.severity
  simp [cells, HasInertCells, visible_self, hseverity, hlabel.1, hundrawn]

/-- The paragraphs of a diagnostic are as many as its sentences. -/
theorem length_page (d : Diagnostic) (color : String) :
    (d.page color).length = d.sentences.length := by
  simp [page_eq, sentences]

end Diagnostic

namespace Report

variable {r : Report}

theorem page_of_found (hfound : r.errors ++ r.warnings ≠ []) (source : Option String) :
    r.page source = r.summary source :: (r.errors.flatMap (·.page "red") ++
      r.warnings.flatMap (·.page "yellow")) := by
  have hshown : (r.isValid && r.warnings.isEmpty) = false := by
    rw [isValid, Bool.and_eq_false_iff, List.isEmpty_eq_false_iff, List.isEmpty_eq_false_iff]
    simpa [← not_and_or] using hfound
  rw [page, hshown, if_neg Bool.false_ne_true]
  rfl

/-- The text form of a report says all texts of its errors and then of its warnings just when these
are inert. -/
theorem says_page (hfound : r.errors ++ r.warnings ≠ []) (source : Option String) :
    List.Forall₂ (Block.Says e) (r.page source).tail
      ((r.errors ++ r.warnings).flatMap Diagnostic.sentences) ↔
      ∀ d ∈ r.errors ++ r.warnings, d.IsInert e := by
  have hgroup (color : String) (hcolor : Diagnostic.IsColor color) (l : List Diagnostic) :
      List.Forall₂ (Block.Says e) (l.flatMap (·.page color)) (l.flatMap Diagnostic.sentences) ↔
        ∀ d ∈ l, d.IsInert e := by
    rw [forall₂_flatMap fun d => d.length_page color]
    exact forall₂_congr fun d _ => d.says_page hcolor
  have hred := hgroup "red" Diagnostic.isColor_red r.errors
  have hyellow := hgroup "yellow" Diagnostic.isColor_yellow r.warnings
  have hlength : (r.errors.flatMap (·.page "red")).length =
      (r.errors.flatMap Diagnostic.sentences).length := by
    simp only [List.length_flatMap, Diagnostic.length_page]
  rw [page_of_found hfound, List.tail_cons, List.flatMap_append, List.forall_mem_append, ← hred,
    ← hyellow, ← forall₂_append hlength]

/-- The grid form of a report says all texts of its diagnostics just when these are inert. -/
theorem says_grid (r : Report) : r.grid.SaysRows e (r.diagnostics.map Diagnostic.cells) ↔
    ∀ d ∈ r.diagnostics, d.HasInertCells e := by
  have hcells : r.grid.SaysRows e (r.diagnostics.map Diagnostic.cells) ↔
      List.Forall₂ (List.Forall₂ fun cell s => visible e cell = .ok s) r.table.rows _ :=
    ⟨fun ⟨_, hg, h⟩ => by cases hg; exact h, fun h => ⟨_, rfl, h⟩⟩
  rw [hcells, table, List.forall₂_map_left_iff, List.forall₂_map_right_iff, List.forall₂_same]
  exact forall₂_congr fun d _ => d.says_cells

/-- The lines of the text form have all ink of its sentences, in their order. On a console of one cell
there is no room for a character that takes two. -/
theorem prints_page (hfound : r.errors ++ r.warnings ≠ []) (source : Option String)
    (hinert : ∀ d ∈ r.errors ++ r.warnings, d.IsInert console.emoji) : ∃ heading printed,
      (r.page source).mapM (Block.lines console) = .ok (heading :: printed) ∧
      (2 ≤ console.width → List.Forall₂ Terminal.Holds printed
        ((r.errors ++ r.warnings).flatMap Diagnostic.sentences)) := by
  have hsays := (says_page hfound source).mpr hinert
  rw [page_of_found hfound, List.tail_cons] at hsays
  obtain ⟨heading, hheading⟩ : ∃ heading, (r.summary source).lines console = .ok heading := ⟨_, rfl⟩
  refine ⟨heading, ((r.errors ++ r.warnings).flatMap Diagnostic.sentences).map
    (Terminal.wrap .fold console.width), ?_, fun hwide => ?_⟩
  · rw [page_of_found hfound]
    refine mapM_eq_ok_iff.mpr (.cons hheading (List.forall₂_map_right_iff.mpr ?_))
    exact hsays.imp fun b s h => h.lines
  · exact List.forall₂_map_left_iff.mpr
      (List.forall₂_same.mpr fun s _ hs => Terminal.ink_wrap hs hwide)

section Table

/-- The texts above the columns of the grid form. -/
def headings : List String := ["Code", "Severity", "Location", "Message"]

/-- What the rows of the grid form say. -/
def rows (r : Report) : List (List String) := headings :: r.diagnostics.map Diagnostic.cells

/-- The widths of the columns of the grid form. -/
def widths (c : Console) (r : Report) : List Nat := r.table.widths c r.rows

/-- The grid form of a report on a console: a row for the headings and one for each diagnostic, in their
order. -/
structure IsTabled (c : Console) (r : Report) : Prop where
  lines : ∃ title, r.grid.lines c = .ok (title ++ r.rows.flatMap (Grid.rowLines (r.widths c)))
  /-- Columns keep their texts where no line into which one is broken at its blanks is too wide. -/
  kept : ∀ d ∈ r.diagnostics, (∀ s ∈ d.cells, '…' ∉ s.toList) →
    (List.Forall₂ Terminal.Keeps (r.widths c) d.cells ↔
      List.Forall₂ Terminal.HasRoom (r.widths c) d.cells)
  /-- The lines of a row have all ink of its texts under the same condition. -/
  held : ∀ d ∈ r.diagnostics, (∀ s ∈ d.cells, '…' ∉ s.toList) →
    (Grid.Holds (r.widths c) d.cells ↔ List.Forall₂ Terminal.HasRoom (r.widths c) d.cells)
  /-- A row is one line where its texts have room on one. -/
  whole : ∀ d ∈ r.diagnostics, Grid.Fits (r.widths c) d.cells →
    Grid.rowLines (r.widths c) d.cells = ["  ".intercalate d.cells]
  /-- Codes and severities have room first. Locations and messages share what is left. -/
  shared : 23 ≤ c.width → ∃ place message,
    r.widths c = [6, 8, place - 2, message - 2] ∧ place + message + 23 ≤ c.width
  /-- Locations and messages have all the room they need on a console that is wide enough. Then all texts
  have room, unless a code is too wide or a character takes none by itself. -/
  wide : Grid.needed r.rows 2 + Grid.needed r.rows 3 + 27 ≤ c.width →
    r.widths c = [6, 8, Grid.needed r.rows 2, Grid.needed r.rows 3] ∧
    ∀ d ∈ r.diagnostics, (∀ s ∈ d.cells, Terminal.Solid s.toList) → Terminal.cells d.code.toList ≤ 6 →
      Grid.Fits (r.widths c) d.cells

theorem widths_of_wide (hwide : Grid.needed r.rows 2 + Grid.needed r.rows 3 + 27 ≤ console.width) :
    r.widths console = [6, 8, Grid.needed r.rows 2, Grid.needed r.rows 3] := by
  have hroom : Grid.total [8, 10, 2 + Grid.needed r.rows 2, 2 + Grid.needed r.rows 3] ≤
      console.width - r.table.frame := by
    change 0 + 8 + 10 + (2 + _) + (2 + _) ≤ console.width - 5
    omega
  exact Grid.widths_of_room hroom

/-- The heading of a column needs some room. -/
theorem needed_pos {i : Nat} (h : Terminal.widthOf (headings.getD i "") ≠ 0) :
    0 < Grid.needed r.rows i :=
  Nat.lt_of_lt_of_le (Nat.pos_of_ne_zero h) (Grid.widthOf_le_needed List.mem_cons_self i)

/-- Texts have room in columns that are as wide as all texts in them need. -/
theorem fits_needed {d : Diagnostic} (hd : d ∈ r.diagnostics)
    (hsolid : ∀ s ∈ d.cells, Terminal.Solid s.toList) (hcode : Terminal.cells d.code.toList ≤ 6) :
    Grid.Fits [6, 8, Grid.needed r.rows 2, Grid.needed r.rows 3] d.cells := by
  have hrow : d.cells ∈ r.rows := List.mem_cons_of_mem _ (List.mem_map_of_mem hd)
  have hseverity : Terminal.cells d.severity.label.toList ≤ 8 := by
    cases d.severity <;> decide +kernel
  simp only [Diagnostic.cells, List.forall_mem_cons] at hsolid
  obtain ⟨hcodes, hseverities, hplaces, hmessages, _⟩ := hsolid
  have hplace := (Terminal.widthOf_of_solid hplaces).ge.trans (Grid.widthOf_le_needed hrow 2)
  have hmessage := (Terminal.widthOf_of_solid hmessages).ge.trans (Grid.widthOf_le_needed hrow 3)
  exact .cons ⟨by decide, hcodes, hcode⟩ (.cons ⟨by decide, hseverities, hseverity⟩
    (.cons ⟨needed_pos (by decide +kernel), hplaces, hplace⟩
      (.cons ⟨needed_pos (by decide +kernel), hmessages, hmessage⟩ .nil)))

/-- The headings are read as they are. -/
theorem seenRows_table (hinert : ∀ d ∈ r.diagnostics, d.HasInertCells e) :
    r.table.seenRows e = .ok r.rows := by
  obtain ⟨g, hg, hcells⟩ := (says_grid r).mpr hinert
  cases hg
  have hheading : headings.mapM (visible e) = .ok headings := by
    have hplain : ∀ s ∈ headings, Inert s.toList ∧ ':' ∉ s.toList := by decide
    refine mapM_eq_ok_iff.mpr (List.forall₂_same.mpr fun s hs => ?_)
    exact visible_of_bare (hplain s hs).1 (hplain s hs).2
  exact mapM_eq_ok_iff.mpr (.cons hheading (hcells.imp fun row cells h => mapM_eq_ok_iff.mpr h))

theorem tabled (console : Console) (hinert : ∀ d ∈ r.diagnostics, d.HasInertCells console.emoji) :
    r.IsTabled console where
  lines := by
    have hplain : Inert "Schema Diagnostics".toList ∧ ':' ∉ "Schema Diagnostics".toList := by decide
    have htitle : visible console.emoji r.table.title = .ok r.table.title :=
      visible_of_bare hplain.1 hplain.2
    refine ⟨Terminal.wrap .fold (Grid.total (r.table.outerWidths console r.rows) + r.table.frame)
      r.table.title, ?_⟩
    rw [grid, Block.lines, Grid.lines, htitle, seenRows_table hinert]
    rfl
  kept _ _ := Terminal.forall₂_keeps_iff
  held _ _ := Grid.holds_iff (Grid.length_widths console r.table r.rows)
  whole d _ hfits := hfits.rowLines (List.cons_ne_nil _ _)
  shared hwide := r.exists_widths hwide r.rows
  wide hwide := by
    rw [widths_of_wide hwide]
    exact ⟨rfl, fun d hd => fits_needed hd⟩

/-- A location of one word that is wider than its column is cut. -/
example :
    let r : Report := ⟨[(Finding.propertyNotMapping "Filter[0]" "int").atPath
      "components.schemas.A.properties.Filter[0]"]⟩
    ¬ ∀ d ∈ r.diagnostics, Grid.Holds (r.widths ⟨80, .none⟩) d.cells := by
  decide +kernel

end Table

/-- A report of errors or warnings is shown intact just when its texts have no markup and no names of
pictures in them. Then the text form has, below its summary, all ink of each diagnostic, errors first. The
grid form has it as far as the columns have room on the console. -/
theorem intact_iff (hfound : r.errors ++ r.warnings ≠ []) (source : Option String)
    (console : Console) :
    let found := r.errors ++ r.warnings
    let sentences := found.flatMap Diagnostic.sentences
    (∃ blocks, r.page source = r.summary source :: blocks ∧
      (List.Forall₂ (Block.Says console.emoji) blocks sentences ↔
        ∀ d ∈ found, d.IsInert console.emoji)) ∧
    ((∀ d ∈ found, d.IsInert console.emoji) → ∃ heading printed,
      (r.page source).mapM (Block.lines console) = .ok (heading :: printed) ∧
      (2 ≤ console.width → List.Forall₂ Terminal.Holds printed sentences)) ∧
    (r.grid.SaysRows console.emoji (r.diagnostics.map Diagnostic.cells) ↔
      ∀ d ∈ r.diagnostics, d.HasInertCells console.emoji) ∧
    ((∀ d ∈ r.diagnostics, d.HasInertCells console.emoji) → r.IsTabled console) := by
  have hsays := says_page (e := console.emoji) hfound source
  refine ⟨⟨_, page_of_found hfound source, ?_⟩, prints_page hfound source, says_grid r, tabled console⟩
  rw [page_of_found hfound source] at hsays
  exact hsays

/-- Brackets that start no tag are shown. -/
theorem bracketed_intact :
    let r : Report := ⟨[(Finding.propertyNotMapping "Filter[0]" "int").atPath
      "components.schemas.A.properties.Filter[0]"]⟩
    let console : Console := ⟨120, .none⟩
    r.errors ++ r.warnings ≠ [] ∧ (∃ heading printed,
      (r.page (some "api.yaml")).mapM (Block.lines console) = .ok (heading :: printed) ∧
      List.Forall₂ Terminal.Holds printed ((r.errors ++ r.warnings).flatMap Diagnostic.sentences)) ∧
    ∀ d ∈ r.diagnostics, Grid.Holds (r.widths console) d.cells := by
  intro r console
  have hfound : r.errors ++ r.warnings ≠ [] := by decide
  have hbracketed : ∀ d ∈ r.errors ++ r.warnings, ∀ s ∈ d.bracketed, Inert s.toList := by
    decide +kernel
  have hcells : ∀ d ∈ r.diagnostics, ∀ s ∈ d.cells, Inert s.toList := by
    decide +kernel
  obtain ⟨-, hprinted, -, htabled⟩ := intact_iff hfound (some "api.yaml") console
  obtain ⟨heading, printed, hlines, hholds⟩ :=
    hprinted fun d hd => ⟨hbracketed d hd, fun s _ => undrawn_none s⟩
  have hheld := (htabled fun d hd s hs => ⟨hcells d hd s hs, undrawn_none s⟩).held
  refine ⟨hfound, ⟨heading, printed, hlines, hholds (by decide)⟩, fun d hd => ?_⟩
  obtain rfl := List.mem_singleton.mp hd
  exact (hheld _ hd (by decide +kernel)).mpr (by decide +kernel)

/-- A bracket with a small letter behind it starts a tag, which is not shown in either form. -/
theorem bracketed_name_lost :
    let d := (Finding.propertyNotMapping "filter[name]" "int").atPath
      "components.schemas.A.properties.filter[name]"
    let r : Report := ⟨[d]⟩
    r.errors ++ r.warnings = [d] ∧
      ¬ List.Forall₂ (Block.Says .none) (r.page none).tail d.sentences ∧
      ¬ r.grid.SaysRows .none [d.cells] ∧
      visible .none d.message = .ok "Property 'filter' is a int, not a schema mapping; dropped" := by
  intro d r
  have hfound : r.errors ++ r.warnings = [d] := by decide
  have hpage := says_page (r := r) (e := .none) (hfound ▸ List.cons_ne_nil d []) none
  have hgrid := r.says_grid (e := .none)
  rw [hfound, List.flatMap_singleton, List.forall_mem_singleton] at hpage
  rw [List.map_singleton, List.forall_mem_singleton] at hgrid
  have hmarked : ¬ ∀ s ∈ d.bracketed, Inert s.toList := by decide +kernel
  have hcells : ¬ ∀ s ∈ d.cells, Inert s.toList := by decide +kernel
  refine ⟨hfound, mt hpage.mp fun h => hmarked h.unmarked, mt hgrid.mp fun h => hcells fun s hs =>
    (h s hs).1, ?_⟩
  decide +kernel

end Report

end SchemaCompiler
