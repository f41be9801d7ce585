import SchemaCompiler.Proofs.Lowering.Findings
import SchemaCompiler.Proofs.Terminal.Reports
import SchemaCompiler.Proofs.Terminal.Shown
import SchemaCompiler.Proofs.Terminal.Widths
import SchemaCompiler.Proofs.Terminal.Wrap

/-!
The codes of findings in a report. In both of its forms a report that is printed has a line with the
code of each of its findings, whatever the texts from the document are.
-/
namespace SchemaCompiler

open Markup
open Terminal (IsInk IsPlain IsWord exists_wrap)
open Text (bind_eq_ok_iff mapM_eq_ok_iff exists_right_of_mem)

variable {d : Diagnostic} {color : String} {r : Report}

theorem Terminal.IsPlain.not_dropped {c : Char} (h : IsPlain c) : isDropped c = false := by
  have hne {d : Char} (hd : d.toNat < 0x20 ∨ 0x7e < d.toNat) : (c == d) = false :=
    beq_false_of_ne (h.ne hd)
  simp only [isDropped, Bool.or_eq_false_iff]
  exact ⟨⟨⟨⟨hne (by decide), hne (by decide)⟩, hne (by decide)⟩, hne (by decide)⟩, hne (by decide)⟩

namespace Finding

/-- All codes of findings. -/
def codes : List String :=
  ["S001", "S002", "S003", "S004", "S005", "S006", "S007", "S008", "S009", "S010", "W101", "W102",
    "W103", "W104"]

theorem code_mem_codes (f : Finding) : f.code ∈ codes := by
  cases f <;> simp [codes, code]

/-- How a code is printed: none of it is markup or a picture, and it has room in its column. -/
structure IsCode (code : String) : Prop where
  word : IsWord code.toList
  free : '[' ∉ code.toList ∧ ':' ∉ code.toList
  starts : code.toList.head?.any startsTag = false
  short : code.toList.length ≤ 6
  whole : Terminal.wrap .dots 6 code = [code]

theorem IsCode.bracketed {code : String} (h : IsCode code) : IsWord ('[' :: code.toList ++ [']']) := by
  refine ⟨List.cons_ne_nil _ _, fun c hc => ?_⟩
  rcases List.mem_append.mp hc with hc | hc
  · rcases List.mem_cons.mp hc with rfl | hc
    · decide
    · exact h.word.ink c hc
  · rw [List.mem_singleton.mp hc]
    decide

theorem isCode_of_mem {code : String} (h : code ∈ codes) : IsCode code := by
  have hword : ∀ code ∈ codes,
      code.toList ≠ [] ∧ code.toList.all (fun c => decide (IsInk c)) = true := by
    decide
  have hmarkup : ∀ code ∈ codes, ('[' ∉ code.toList ∧ ':' ∉ code.toList) ∧
      code.toList.head?.any startsTag = false := by decide
  have hroom : ∀ code ∈ codes, code.toList.length ≤ 6 ∧ Terminal.wrap .dots 6 code = [code] := by
    decide
  obtain ⟨hne, hink⟩ := hword code h
  exact ⟨⟨hne, by simpa using hink⟩, (hmarkup code h).1, (hmarkup code h).2, (hroom code h).1,
    (hroom code h).2⟩

theorem isCode (f : Finding) : IsCode f.code := isCode_of_mem f.code_mem_codes

theorem severity_cases (f : Finding) : f.severity = .error ∨ f.severity = .warning := by
  cases f with
  | schemaNotMapping => exact .inl rfl
  | _ => exact .inr rfl

end Finding

namespace Diagnostic

theorem IsFinding.isCode (h : d.IsFinding) : Finding.IsCode d.code := by
  obtain ⟨f, path, rfl⟩ := h
  exact f.isCode

theorem IsFinding.severity_cases (h : d.IsFinding) :
    d.severity = .error ∨ d.severity = .warning := by
  obtain ⟨f, path, rfl⟩ := h
  exact f.severity_cases

/-- The code of a diagnostic stands in one of some lines. -/
def IsNamedIn (d : Diagnostic) (lines : List String) : Prop :=
  ∃ line ∈ lines, d.code.toList <:+: line.toList

instance (d : Diagnostic) (lines : List String) : Decidable (d.IsNamedIn lines) :=
  inferInstanceAs (Decidable (∃ line ∈ lines, d.code.toList <:+: line.toList))

end Diagnostic

/-- A block that names a diagnostic, if it can be printed on a console. -/
def Block.Names (c : Console) (b : Block) (d : Diagnostic) : Prop :=
  ∀ lines, b.lines c = .ok lines → d.IsNamedIn lines

namespace Severity

theorem label_word (s : Severity) : IsWord s.label.toList := by
  have hlabels : ∀ label ∈ ["ERROR", "WARNING", "INFO"],
      label.toList ≠ [] ∧ label.toList.all (fun c => decide (IsInk c)) = true := by
    decide
  have hmem : s.label ∈ ["ERROR", "WARNING", "INFO"] := by cases s <;> simp [label]
  exact ⟨(hlabels _ hmem).1, by simpa using (hlabels _ hmem).2⟩

theorem length_label (s : Severity) : s.label.toList.length ≤ 7 := by
  cases s <;> decide

end Severity

variable {console : Console}

section Page

theorem Finding.IsCode.tag? {code : String} (h : IsCode code) (more : List Char) :
    tag? (cuts (code.toList ++ more)).1 = none := by
  obtain ⟨c, cs, hcode⟩ := List.exists_cons_of_ne_nil h.word.ne_nil
  have hfirst : (cuts (code.toList ++ more)).1.head? = some c := by
    rw [cuts_append h.free.1, hcode]
    rfl
  have hstarts := h.starts
  rw [hcode, List.head?_cons, Option.any_some] at hstarts
  rw [Markup.tag?, hfirst, Option.any_some, hstarts]
  rfl

/-- The first line of a diagnostic is seen with its severity and its code in front. -/
theorem prefix_visible_head (hcode : Finding.IsCode d.code) (hcolor : Diagnostic.IsColor color)
    {e : Emoji} {v : String} (h : visible e (d.head color) = .ok v) :
    d.severity.label.toList ++ ' ' :: ('[' :: d.code.toList ++ [']'] ++ [' ']) <+: v.toList := by
  obtain ⟨q, hread, rfl⟩ := visible_eq_ok.mp h
  have hcodeFree : '[' ∉ d.code.toList ++ [']'] := by simpa using hcode.free.1
  have hescaped (p : Page) (more : List Char) : p.readText ('\\' :: '[' :: (d.code.toList ++ more)) =
      (p.put ['[']).readText (d.code.toList ++ more) :=
    Page.readText_plain List.not_mem_nil nofun (hcode.tag? more) 1 p
  rw [d.readText_head hcolor, List.append_assoc, hescaped, ← List.append_assoc,
    Page.readText_closing hcodeFree (by simp) hcolor.opens.bare rfl,
    Page.readText_append (by decide) (by decide)] at hread
  have hseen : (((((d.headPage color).put ['[']).put (d.code.toList ++ [']'])).after []).put
      [' ']).seen.reverse =
      d.severity.label.toList ++ ' ' :: ('[' :: d.code.toList ++ [']'] ++ [' ']) := by
    simp only [Page.seen_put, Page.seen_after, d.seen_headPage]
    simp
  have hcolon : ':' ∉ d.severity.label.toList ++ ' ' :: ('[' :: d.code.toList ++ [']'] ++ [' ']) := by
    have hlabel : ':' ∉ d.severity.label.toList := by
      cases d.severity <;> decide
    simp [hlabel, hcode.free.2]
  -- The severity and the code have been seen where the message begins, and they stay.
  have hstays := (Page.continues_read hread).prefix_shown
    (fun hmem => hcolon (hseen ▸ List.mem_reverse.mpr hmem)) e
  rw [hseen] at hstays
  refine prefix_plain (fun c hc => ?_) ?_
  · exact (Terminal.isPlain_of_words d.severity.label_word hcode.bracketed c hc).not_dropped
  · rwa [String.toList_ofList]

/-- A text that is printed as a paragraph is broken into lines. -/
theorem Block.lines_markup {s : String} {lines : List String}
    (h : (Block.paragraph (.markup s)).lines console = .ok lines) :
    ∃ v, visible console.emoji s = .ok v ∧ lines = Terminal.wrap .fold console.width v := by
  obtain ⟨v, hv, h⟩ := bind_eq_ok_iff.mp h
  cases h
  exact ⟨v, hv, rfl⟩

theorem Diagnostic.exists_names_page (hwide : 23 ≤ console.width) (hcode : Finding.IsCode d.code)
    (hcolor : IsColor color) : ∃ b ∈ d.page color, b.Names console d := by
  refine ⟨_, List.mem_cons_self, fun lines hlines => ?_⟩
  obtain ⟨v, hv, rfl⟩ := Block.lines_markup hlines
  have hstart := prefix_visible_head hcode hcolor hv
  have hroom : d.severity.label.toList.length + ('[' :: d.code.toList).length + 2 ≤ console.width := by
    have hlabel := d.severity.length_label
    have hshort := hcode.short
    rw [List.length_cons]
    omega
  obtain ⟨line, hline, hprefix⟩ :=
    exists_wrap .fold d.severity.label_word hcode.bracketed hroom hstart
  refine ⟨line, hline, List.IsInfix.trans ?_ hprefix.isInfix⟩
  exact ⟨d.severity.label.toList ++ [' ', '['], [], by simp⟩

/-- Each finding of a report is named by a block of its page. -/
theorem Report.exists_names_page (hwide : 23 ≤ console.width) (hd : d ∈ r.diagnostics)
    (hfinding : d.IsFinding) (source : Option String) : ∃ b ∈ r.page source, b.Names console d := by
  rw [page]
  rcases hfinding.severity_cases with hseverity | hseverity
  · have hmem : d ∈ r.errors := List.mem_filter.mpr ⟨hd, by rw [hseverity]; rfl⟩
    obtain ⟨b, hb, hnames⟩ := Diagnostic.exists_names_page hwide hfinding.isCode Diagnostic.isColor_red
    have hinvalid : r.isValid = false := by
      rw [isValid, List.isEmpty_eq_false_iff]
      exact List.ne_nil_of_mem hmem
    rw [hinvalid]
    refine ⟨b, List.mem_append_left _ (List.mem_cons_of_mem _ ?_), hnames⟩
    exact List.mem_flatMap.mpr ⟨d, hmem, hb⟩
  · have hmem : d ∈ r.warnings := List.mem_filter.mpr ⟨hd, by rw [hseverity]; rfl⟩
    obtain ⟨b, hb, hnames⟩ := Diagnostic.exists_names_page hwide hfinding.isCode Diagnostic.isColor_yellow
    have hwarned : r.warnings.isEmpty = false :=
      List.isEmpty_eq_false_iff.mpr (List.ne_nil_of_mem hmem)
    rw [hwarned, Bool.and_false]
    exact ⟨b, List.mem_append_right _ (List.mem_flatMap.mpr ⟨d, hmem, hb⟩), hnames⟩

end Page

section Grid

open Grid

theorem le_highest (n : Nat) (cells : List (List String)) :
    n ≤ cells.foldl (fun n cell => max n cell.length) n := by
  induction cells generalizing n with
  | nil => exact Nat.le_refl n
  | cons cell cells ih => exact Nat.le_trans (Nat.le_max_left _ _) (ih _)

/-- The first line of a row starts as its first cell does. -/
theorem exists_beside (first : String) (lines : List String) (cells : List (List String)) :
    ∃ line ∈ beside ((first :: lines) :: cells), first.toList <+: line.toList := by
  refine ⟨_, List.mem_map_of_mem (List.mem_range.mpr (?_ : 0 < _)), ?_⟩
  · refine Nat.lt_of_lt_of_le ?_ (le_highest _ cells)
    simp
  · rw [List.map_cons, List.getD_cons_zero, String.toList_intercalate, List.map_cons]
    cases cells with
    | nil => simp
    | cons cell cells =>
      rw [List.map_cons, List.map_cons, List.intercalate_cons_cons, List.append_assoc]
      exact List.prefix_append _ _

/-- Each finding of a report is named by its grid. -/
theorem Report.names_grid (hwide : 23 ≤ console.width) (hd : d ∈ r.diagnostics)
    (hfinding : d.IsFinding) : r.grid.Names console d := by
  intro lines hlines
  have hcode := hfinding.isCode
  have hinert : Inert d.code.toList :=
    ⟨unmarked_of_free hcode.free.1, fun c hc => IsPlain.not_dropped (.inl (hcode.word.ink c hc))⟩
  have hseen : visible console.emoji d.code = .ok d.code := visible_of_bare hinert hcode.free.2
  obtain ⟨title, _, h⟩ := bind_eq_ok_iff.mp hlines
  obtain ⟨rows, hrows, h⟩ := bind_eq_ok_iff.mp h
  cases h
  obtain ⟨row, hmem, hcells⟩ := exists_right_of_mem (mapM_eq_ok_iff.mp hrows)
    (List.mem_append_right _ (List.mem_map_of_mem hd))
  obtain ⟨place, message, hwidths, _⟩ := Report.exists_widths hwide r rows
  cases mapM_eq_ok_iff.mp hcells with
  | @cons _ seen _ others hfirst _ =>
    rw [hseen] at hfirst
    cases hfirst
    obtain ⟨line, hline, hprefix⟩ := exists_beside d.code []
      (List.zipWith (Terminal.wrap .dots) [8, place - 2, message - 2] others)
    have hline : line ∈ rowLines (r.table.widths console rows) (d.code :: others) := by
      rw [rowLines, hwidths, List.zipWith_cons_cons, hcode.whole]
      exact hline
    exact ⟨line, List.mem_append_right _ (List.mem_flatMap.mpr ⟨_, hmem, hline⟩), hprefix.isInfix⟩

end Grid

end SchemaCompiler
