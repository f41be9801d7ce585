import Mathlib.Data.List.Infix
import SchemaCompiler.Terminal.Block

/-!
When marked texts are shown. Only a closing tag can be wrong. So a text in which no bracket is followed
by a slash is right, also between an opening tag and the closing tag of the same style.
-/
namespace SchemaCompiler.Markup

variable {p : Page} {a b cs cut tag after before body : List Char} {free rest : List (List Char)}

/-- Whether a bracket of a text is followed by a slash, as in a closing tag. -/
def Closes (cs : List Char) : Prop := ['[', '/'] <:+: cs

instance : DecidablePred Closes := fun cs => inferInstanceAs (Decidable (['[', '/'] <:+: cs))

theorem Closes.slash (h : Closes cs) : '/' ∈ cs := h.subset (by decide)

theorem not_mem_toString (n : Nat) : '[' ∉ (toString n).toList := by
  rw [Nat.toString_eq_ofList_toDigits, String.toList_ofList]
  intro hmem
  have hdigit := Nat.isDigit_of_mem_toDigits (by decide) (by decide) hmem
  exact absurd hdigit (by decide)

theorem cuts_bracket (cs : List Char) : cuts ('[' :: cs) = ([], (cuts cs).1 :: (cuts cs).2) := rfl

theorem cuts_cons {c : Char} (h : c ≠ '[') (cs : List Char) :
    cuts (c :: cs) = (c :: (cuts cs).1, (cuts cs).2) := by
  simp [cuts, h]

theorem cuts_append_bracket (a b : List Char) :
    cuts (a ++ '[' :: b) = ((cuts a).1, (cuts a).2 ++ (cuts b).1 :: (cuts b).2) := by
  induction a with
  | nil => exact cuts_bracket b
  | cons c a ih =>
    by_cases hc : c = '['
    · subst hc
      rw [List.cons_append, cuts_bracket, ih, cuts_bracket]
      rfl
    · rw [List.cons_append, cuts_cons hc, ih, cuts_cons hc]

theorem cuts_append (h : '[' ∉ a) (b : List Char) :
    cuts (a ++ b) = (a ++ (cuts b).1, (cuts b).2) := by
  induction a with
  | nil => rfl
  | cons c a ih =>
    obtain ⟨hc, ha⟩ := not_or.mp (mt List.mem_cons.mpr h)
    rw [List.cons_append, cuts_cons (Ne.symm hc), ih ha]
    rfl

theorem prefix_cuts (cs : List Char) : (cuts cs).1 <+: cs := by
  induction cs with
  | nil => exact List.nil_prefix
  | cons c cs ih =>
    by_cases hc : c = '['
    · subst hc
      exact List.nil_prefix
    · rw [cuts_cons hc]
      exact List.cons_prefix_cons.mpr ⟨rfl, ih⟩

/-- Each cut follows a bracket of the text. -/
theorem infix_of_mem_cuts (h : cut ∈ (cuts cs).2) : '[' :: cut <:+: cs := by
  induction cs with
  | nil => cases h
  | cons c cs ih =>
    by_cases hc : c = '['
    · subst hc
      rcases List.mem_cons.mp h with rfl | h
      · exact (List.cons_prefix_cons.mpr ⟨rfl, prefix_cuts cs⟩).isInfix
      · exact (ih h).trans (List.suffix_cons _ _).isInfix
    · rw [cuts_cons hc] at h
      exact (ih h).trans (List.suffix_cons _ _).isInfix

theorem head?_ne_slash (h : ¬ Closes cs) (hcut : cut ∈ (cuts cs).2) : cut.head? ≠ some '/' := by
  intro hhead
  obtain ⟨more, rfl⟩ := List.head?_eq_some_iff.mp hhead
  have hbracket : ['[', '/'] <+: '[' :: '/' :: more := ⟨more, rfl⟩
  exact h (hbracket.isInfix.trans (infix_of_mem_cuts hcut))

theorem closes_cons {c : Char} (h : c ≠ '[') : Closes (c :: cs) ↔ Closes cs := by
  rw [Closes, List.infix_cons_iff, List.cons_prefix_cons]
  exact or_iff_right fun hprefix => h hprefix.1.symm

theorem closes_append (h : '[' ∉ a) : Closes (a ++ b) ↔ Closes b := by
  induction a with
  | nil => exact Iff.rfl
  | cons c a ih =>
    obtain ⟨hc, ha⟩ := not_or.mp (mt List.mem_cons.mpr h)
    exact (closes_cons (Ne.symm hc)).trans (ih ha)

theorem tag?_append (hstarts : tag.head?.any startsTag = true) (hbare : ']' ∉ tag)
    (after : List Char) : tag? (tag ++ ']' :: after) = some (tag, after) := by
  have hinside : ∀ c ∈ tag, (c != ']') = true := fun c hc => bne_iff_ne.mpr fun heq => hbare (heq ▸ hc)
  have hhead : (tag ++ ']' :: after).head?.any startsTag = true := by
    cases tag with
    | nil => cases hstarts
    | cons c tag => exact hstarts
  have hcontains : (tag ++ ']' :: after).contains ']' = true := by simp
  rw [tag?, hhead, hcontains, List.takeWhile_append_of_pos hinside, List.dropWhile_append_of_pos hinside]
  simp

/-- A tag starts as what follows its bracket. -/
theorem head?_of_tag? (h : tag? cut = some (tag, after)) : tag.head? = cut.head? := by
  rw [tag?] at h
  split at h
  · next hstarts =>
    cases h
    cases cut with
    | nil => rfl
    | cons c cut =>
      have hc : (c != ']') = true := by
        rw [bne_iff_ne]
        rintro rfl
        simp [startsTag] at hstarts
      simp only [List.takeWhile_cons, hc, if_true, List.head?_cons]
  · cases h

/-- The inner text of a tag that opens a style. -/
structure Opens (tag : List Char) : Prop where
  starts : tag.head?.any startsTag = true
  slash : tag.head? ≠ some '/'
  bare : '[' ∉ tag ∧ ']' ∉ tag

theorem cuts_tag (htag : '[' ∉ tag) (cs : List Char) :
    cuts (tag ++ ']' :: cs) = (tag ++ ']' :: (cuts cs).1, (cuts cs).2) := by
  rw [cuts_append htag, cuts_cons (by decide)]

/-- The cuts of a text with a tag, a text in its style and the closing tag. -/
theorem cuts_styled (htag : Opens tag) (hbefore : '[' ∉ before) (body more : List Char) :
    cuts (before ++ '[' :: (tag ++ ']' :: (body ++ '[' :: ('/' :: tag ++ ']' :: more)))) =
      (before, (tag ++ ']' :: (cuts body).1) :: ((cuts body).2 ++
        ('/' :: tag ++ ']' :: (cuts more).1) :: (cuts more).2)) := by
  have hclosing : cuts ('/' :: tag ++ ']' :: more) =
      ('/' :: tag ++ ']' :: (cuts more).1, (cuts more).2) := by
    rw [List.cons_append, cuts_cons (by decide), cuts_tag htag.bare.1]
    rfl
  rw [cuts_append hbefore, cuts_bracket, cuts_tag htag.bare.1, cuts_append_bracket, hclosing,
    List.append_nil]

namespace Page

theorem apply_opening (h : tag.head? ≠ some '/') (p : Page) :
    p.apply tag = .ok { p with opened := styleName tag :: p.opened } := by
  cases tag with
  | nil => rfl
  | cons c tag =>
    have hc : c ≠ '/' := fun heq => h (congrArg some heq)
    simp [apply, hc]

theorem apply_closing (h : styleName tag ∈ p.opened) : ∃ p', p.apply ('/' :: tag) = .ok p' := by
  simp only [apply]
  split
  · cases hopened : p.opened with
    | nil =>
      rw [hopened] at h
      cases h
    | cons style others => exact ⟨_, rfl⟩
  · rw [if_pos (List.contains_iff_mem.mpr h)]
    exact ⟨_, rfl⟩

theorem apply_stray (h : p.opened = []) : ∃ e, p.apply ('/' :: tag) = .error e := by
  simp only [apply, h]
  split
  · exact ⟨_, rfl⟩
  · exact ⟨_, rfl⟩

/-- What starts no closing tag is read, and no style is closed by it. -/
theorem read_quiet (h : cut.head? ≠ some '/') (p : Page) (before : List Char)
    (rest : List (List Char)) : ∃ (p' : Page) (before' : List Char),
      p.read before (cut :: rest) = p'.read before' rest ∧ p.opened ⊆ p'.opened := by
  rw [read]
  dsimp only
  split
  · exact ⟨_, _, rfl, List.Subset.refl _⟩
  · next tag after htag =>
    split
    · exact ⟨_, _, rfl, List.Subset.refl _⟩
    · rw [apply_opening (head?_of_tag? htag ▸ h)]
      exact ⟨_, _, rfl, List.subset_cons_self _ _⟩

theorem read_free (h : ∀ cut ∈ free, cut.head? ≠ some '/') (p : Page) (before : List Char)
    (rest : List (List Char)) : ∃ (p' : Page) (before' : List Char),
      p.read before (free ++ rest) = p'.read before' rest ∧ p.opened ⊆ p'.opened := by
  induction free generalizing p before with
  | nil => exact ⟨p, before, rfl, List.Subset.refl _⟩
  | cons cut free ih =>
    obtain ⟨p₁, before₁, hfirst, hopened₁⟩ :=
      read_quiet (h cut List.mem_cons_self) p before (free ++ rest)
    obtain ⟨p₂, before₂, hmore, hopened₂⟩ :=
      ih (fun cut hcut => h cut (List.mem_cons_of_mem _ hcut)) p₁ before₁
    exact ⟨p₂, before₂, hfirst.trans hmore, List.Subset.trans hopened₁ hopened₂⟩

theorem escape_eq_nil (h : before.getLast? ≠ some '\\') :
    before.reverse.takeWhile (· == '\\') = [] := by
  rw [← List.head?_reverse] at h
  cases hrev : before.reverse with
  | nil => rfl
  | cons c more =>
    rw [hrev] at h
    exact List.takeWhile_cons_of_neg (by simpa using h)

/-- After a text that does not end in a backslash a tag opens its style. -/
theorem read_opening (hbefore : before.getLast? ≠ some '\\') (htag : tag? cut = some (tag, after))
    (h : tag.head? ≠ some '/') (p : Page) (rest : List (List Char)) :
    ∃ p' : Page, p.read before (cut :: rest) = p'.read after rest ∧ styleName tag ∈ p'.opened := by
  rw [read]
  dsimp only
  rw [htag, escape_eq_nil hbefore]
  dsimp only
  rw [if_neg (by decide), apply_opening h]
  exact ⟨_, rfl, List.mem_cons_self⟩

/-- The closing tag of an open style is read, whether or not it is escaped. -/
theorem read_closing (htag : tag? cut = some ('/' :: tag, after)) (h : styleName tag ∈ p.opened)
    (before : List Char) (rest : List (List Char)) :
    ∃ p' : Page, p.read before (cut :: rest) = p'.read after rest := by
  rw [read]
  dsimp only
  rw [htag]
  dsimp only
  split
  · exact ⟨_, rfl⟩
  · obtain ⟨p', hp'⟩ := apply_closing (p := (p.put _).cut.put _) h
    rw [hp']
    exact ⟨p', rfl⟩

/-- A closing tag is stray where no style is open. -/
theorem read_stray (hbefore : before.getLast? ≠ some '\\')
    (htag : tag? cut = some ('/' :: tag, after)) (h : p.opened = []) (rest : List (List Char)) :
    ∃ e, p.read before (cut :: rest) = .error e := by
  rw [read]
  dsimp only
  rw [htag, escape_eq_nil hbefore]
  dsimp only
  rw [if_neg (by decide)]
  obtain ⟨e, he⟩ := apply_stray (p := (p.put _).cut.put _) h
  rw [he]
  exact ⟨e, rfl⟩

/-- Reads a whole text from a page on. -/
def readText (p : Page) (cs : List Char) : Except StrayTag Page := p.read (cuts cs).1 (cuts cs).2

theorem readText_free (h : ¬ Closes cs) (p : Page) : ∃ p', p.readText cs = .ok p' := by
  obtain ⟨p', before', hread, _⟩ :=
    read_free (fun cut hcut => head?_ne_slash h hcut) p (cuts cs).1 []
  rw [List.append_nil] at hread
  exact ⟨_, hread⟩

/-- A text in a style is read, whatever comes after it. -/
theorem readText_styled (before : List Char) (htag : Opens tag) (hfree : '[' ∉ before)
    (hbefore : before.getLast? ≠ some '\\') (hbody : ¬ Closes body) (p : Page) (more : List Char) :
    ∃ p' : Page, p.readText (before ++ '[' :: (tag ++ ']' :: (body ++
      '[' :: ('/' :: tag ++ ']' :: more)))) = p'.readText more := by
  have hclosing : ('/' :: tag).head?.any startsTag = true ∧ ']' ∉ '/' :: tag :=
    ⟨rfl, by simpa using htag.bare.2⟩
  rw [readText, cuts_styled htag hfree]
  obtain ⟨p₁, hopen, hopened⟩ := read_opening hbefore
    (tag?_append htag.starts htag.bare.2 (cuts body).1) htag.slash p
    ((cuts body).2 ++ ('/' :: tag ++ ']' :: (cuts more).1) :: (cuts more).2)
  obtain ⟨p₂, before₂, hinside, hkept⟩ := read_free (fun cut hcut => head?_ne_slash hbody hcut) p₁
    (cuts body).1 (('/' :: tag ++ ']' :: (cuts more).1) :: (cuts more).2)
  obtain ⟨p₃, hclose⟩ := read_closing (tag?_append hclosing.1 hclosing.2 (cuts more).1)
    (hkept hopened) before₂ (cuts more).2
  exact ⟨p₃, hopen.trans (hinside.trans hclose)⟩

end Page

/-- A text with right markup. -/
def Readable (s : String) : Prop := ∃ p, page s = .ok p

theorem page_eq (s : String) : page s = Page.empty.readText s.toList := rfl

/-- What is seen of a readable text, whatever pictures have a name. -/
theorem readable_iff {s : String} (e : Emoji) : Readable s ↔ ∃ v, visible e s = .ok v := by
  rw [Readable, visible]
  cases page s with
  | error stray =>
    constructor
    all_goals
      rintro ⟨_, h⟩
      cases h
  | ok p => exact ⟨fun _ => ⟨_, rfl⟩, fun _ => ⟨p, rfl⟩⟩

theorem readable_of_readText {s : String} (h : Page.empty.readText s.toList = .ok p) : Readable s :=
  ⟨p, h⟩

theorem readable_of_free {s : String} (h : ¬ Closes s.toList) : Readable s := by
  obtain ⟨p, hp⟩ := Page.readText_free h .empty
  exact readable_of_readText hp

/-- A text is not readable when its first tag closes a style. -/
theorem not_readable_of_stray {s : String} (before tag after : List Char) (hfree : '[' ∉ before)
    (hbefore : before.getLast? ≠ some '\\') (htag : '[' ∉ tag ∧ ']' ∉ tag)
    (hs : s.toList = before ++ '[' :: ('/' :: tag ++ ']' :: after)) : ¬ Readable s := by
  have hname : '[' ∉ '/' :: tag ∧ ']' ∉ '/' :: tag := by simpa using htag
  have hcuts : cuts s.toList =
      (before, ('/' :: tag ++ ']' :: (cuts after).1) :: (cuts after).2) := by
    rw [hs, cuts_append hfree, cuts_bracket, cuts_append hname.1, cuts_cons (by decide),
      List.append_nil]
  obtain ⟨e, he⟩ := Page.read_stray (p := .empty) hbefore
    (tag?_append rfl hname.2 (cuts after).1) rfl (cuts after).2
  rintro ⟨p, hp⟩
  rw [page_eq, Page.readText, hcuts, he] at hp
  cases hp

/-- A text in a style is readable, with a text in front and one behind. -/
theorem readable_of_styled {s : String} (before after : List Char) (htag : Opens tag)
    (hfree : '[' ∉ before)
    (hbefore : before.getLast? ≠ some '\\') (hbody : ¬ Closes body) (hafter : ¬ Closes after)
    (hs : s.toList = before ++ '[' :: (tag ++ ']' :: (body ++ '[' :: ('/' :: tag ++ ']' :: after)))) :
    Readable s := by
  obtain ⟨p, hstyled⟩ := Page.readText_styled before htag hfree hbefore hbody .empty after
  obtain ⟨p', hp'⟩ := Page.readText_free hafter p
  rw [← hs, hp'] at hstyled
  exact readable_of_readText hstyled

end SchemaCompiler.Markup
