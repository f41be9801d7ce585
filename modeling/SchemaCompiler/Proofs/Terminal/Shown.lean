import SchemaCompiler.Proofs.Terminal.Inert

/-!
Marked texts that are shown as they are. Neither their markup nor the names of pictures in them may take
a character away. No picture has a colon, so one that takes the place of its name shows in the number of
colons, wherever it stands.
-/
namespace SchemaCompiler.Markup

variable {e : Emoji} {p : Page} {a body more tag : List Char} {outer : List String} {s t v : String}

/-- No name of a picture in a marked text gives way to it. -/
def Undrawn (e : Emoji) (s : String) : Prop := ∀ p, page s = .ok p → p.Undrawn e

theorem undrawn_of_page (h : page s = .ok p) : Undrawn e s ↔ p.Undrawn e := by
  refine ⟨fun hall => hall p h, fun hundrawn q hq => ?_⟩
  rw [h] at hq
  cases hq
  exact hundrawn

/-- A text that has all colons of a marked text is what is seen of it if markup leaves it and no picture
takes the place of its name. -/
theorem visible_iff_shows (hcolons : s.toList.count ':' ≤ v.toList.count ':') :
    visible e s = .ok v ↔ Page.empty.Shows s.toList v.toList ∧ Undrawn e s := by
  rw [visible_eq_ok]
  constructor
  · rintro ⟨p, hp, rfl⟩
    have hsees : Page.empty.Sees s.toList (p.seen.reverse.reverse ++ Page.empty.seen) :=
      ⟨p, hp, by rw [List.reverse_reverse]; exact (List.append_nil _).symm⟩
    rw [plain, String.toList_ofList] at hcolons
    have hkept := (List.filter_sublist (p := (!isDropped ·)) (l := p.shown e)).count_le ':'
    have hfew := hsees.left.sublist.count_le ':'
    rw [List.count_reverse] at hfew
    rw [String.toList_ofList] at hcolons
    have hundrawn : p.Undrawn e := Page.undrawn_of_count (by omega)
    refine ⟨⟨_, hsees, ?_⟩, fun q hq => ?_⟩
    · rw [plain, String.toList_ofList, String.toList_ofList, Page.shown_undrawn hundrawn]
    · rw [page_eq, hp] at hq
      cases hq
      exact hundrawn
  · rintro ⟨⟨shown, ⟨p, hp, hseen⟩, htext⟩, hundrawn⟩
    refine ⟨p, hp, ?_⟩
    rw [Page.shown_undrawn (hundrawn p hp), hseen, Page.seen_empty, List.append_nil,
      List.reverse_reverse, plain, String.toList_ofList, htext, String.ofList_toList]

namespace Page

/-- After a tag a piece begins, and the names of pictures before it stay as they are. -/
theorem undrawn_after_put (opened : List String) (a : List Char) :
    ((p.after opened).put a).Undrawn e ↔ p.Undrawn e ∧ e.draw a = a := by
  have hfirst : ((p.after opened).put a).piece.reverse = a := by
    simp [put, after, cut]
  rw [Undrawn, List.forall_mem_cons, hfirst, and_comm]
  rfl

/-- A page on which no name of a picture can stand. -/
def ColonFree (p : Page) : Prop := ∀ piece ∈ p.piece :: p.pieces, ':' ∉ piece

theorem ColonFree.undrawn (h : p.ColonFree) : p.Undrawn e := fun piece hpiece =>
  Emoji.draw_free fun hmem => h piece hpiece (List.mem_reverse.mp hmem)

theorem colonFree_empty : empty.ColonFree := List.forall_mem_singleton.mpr List.not_mem_nil

theorem ColonFree.undrawn_put (h : p.ColonFree) : (p.put a).Undrawn e ↔ e.draw a = a :=
  Page.undrawn_put (List.forall_mem_cons.mp h).2 (List.forall_mem_cons.mp h).1

theorem undrawn_after (opened : List String) : (p.after opened).Undrawn e ↔ p.Undrawn e :=
  (undrawn_after_put opened []).trans (and_iff_left rfl)

end Page

/-- What is read of a text without markup is one piece. -/
theorem undrawn_iff (h : Unmarked s.toList) : Undrawn e s ↔ e.draw s.toList = s.toList := by
  have hpage : page s = .ok (Page.empty.put s.toList) := Page.readText_unmarked h .empty
  rw [undrawn_of_page hpage, Page.colonFree_empty.undrawn_put]

/-- A text without colons has no name of a picture in it. -/
theorem undrawn_of_bare (h : Unmarked s.toList) (hbare : ':' ∉ s.toList) : Undrawn e s :=
  (undrawn_iff h).mpr (Emoji.draw_free hbare)

theorem undrawn_none (s : String) : Undrawn .none s :=
  fun _ _ _ _ => Emoji.draw_none _

/-- A text is shown as it is just when it is inert and none of its names gives way to a picture. -/
theorem visible_self : visible e s = .ok s ↔ Inert s.toList ∧ Undrawn e s := by
  rw [visible_iff_shows (Nat.le_refl _), Page.shows_self]

/-- A text without markup and colons is shown as it is, whatever pictures there are. -/
theorem visible_of_bare (h : Inert s.toList) (hbare : ':' ∉ s.toList) : visible e s = .ok s :=
  visible_self.mpr ⟨h, undrawn_of_bare h.toUnmarked hbare⟩

example : visible ⟨fun _ => some "❤", by rintro _ _ ⟨⟩; decide⟩ "a :heart: b" = .ok "a ❤ b" := by
  decide +kernel

/-- A text behind an escaped bracket is read in parts, from whatever page on. -/
theorem exists_parts (h : Unmarked body) : ∃ parts : List (List Char), ∀ p : Page, p.ColonFree →
    ∃ q, p.readText ('\\' :: '[' :: body) = .ok q ∧ q.opened = p.opened ∧
      ∀ e, q.Undrawn e ↔ ∀ part ∈ parts, e.draw part = part := by
  cases htag : tag? (cuts body).1 with
  | none =>
    refine ⟨['[' :: body], fun p hp => ⟨p.put ('[' :: body), ?_, rfl, fun e => ?_⟩⟩
    · have hplain := Page.readText_plain List.not_mem_nil nofun htag 1 p
      exact hplain.trans ((Page.readText_unmarked h _).trans (by rw [Page.put_put]; rfl))
    · rw [hp.undrawn_put, List.forall_mem_singleton]
  | some found =>
    obtain ⟨tag, after⟩ := found
    obtain ⟨rest, rfl, hstarts, hbare⟩ := exists_tag htag
    refine ⟨['[' :: tag ++ [']'], rest], fun p hp =>
      ⟨((p.cut.put ('[' :: tag ++ [']'])).cut).put rest, ?_, rfl, fun e => ?_⟩⟩
    · have hescaped : p.readText ('\\' :: '[' :: (tag ++ ']' :: rest)) =
          (p.cut.put ('[' :: tag ++ [']'])).cut.readText rest :=
        Page.readText_tagged List.not_mem_nil nofun hstarts hbare 1 p rest
      rw [hescaped, Page.readText_unmarked (h.of_tag hbare.1)]
    · have hfirst : (p.cut.put ('[' :: tag ++ [']'])).Undrawn e ↔
          e.draw ('[' :: tag ++ [']']) = '[' :: tag ++ [']'] :=
        (Page.undrawn_after_put p.opened _).trans (and_iff_right hp.undrawn)
      have hlast : ((p.cut.put ('[' :: tag ++ [']'])).cut.put rest).Undrawn e ↔
          (p.cut.put ('[' :: tag ++ [']'])).Undrawn e ∧ e.draw rest = rest :=
        Page.undrawn_after_put p.opened rest
      rw [hlast, hfirst, List.forall_mem_cons, List.forall_mem_singleton]

/-- A text behind an escaped bracket, up to the end of its style and on. -/
theorem exists_page_escaped (hfree : p.ColonFree) (hopened : p.opened = Page.styleName tag :: outer)
    (htag : '[' ∉ tag ∧ ']' ∉ tag) (hbody : Inert (body ++ ['['])) (hmore : Inert more) :
    ∃ q, p.readText ('\\' :: '[' :: (body ++ '[' :: ('/' :: tag ++ ']' :: more))) = .ok q ∧
      ∀ e, q.Undrawn e ↔ Undrawn e (String.ofList ('\\' :: '[' :: body)) ∧ e.draw more = more := by
  obtain ⟨hinert, hlast⟩ := inert_bracket.mp hbody
  obtain ⟨parts, hparts⟩ := exists_parts hinert.toUnmarked
  obtain ⟨q, hq, hsame, hundrawn⟩ := hparts p hfree
  obtain ⟨alone, halone, -, hundrawn'⟩ := hparts .empty Page.colonFree_empty
  have hescaped (e : Emoji) : Undrawn e (String.ofList ('\\' :: '[' :: body)) ↔ q.Undrawn e := by
    have hpage : page (String.ofList ('\\' :: '[' :: body)) = .ok alone := by
      rw [page_eq, String.toList_ofList, halone]
    rw [undrawn_of_page hpage, hundrawn, hundrawn']
  refine ⟨(q.after outer).put more, ?_, fun e => ?_⟩
  · have hwhole : '\\' :: '[' :: (body ++ '[' :: ('/' :: tag ++ ']' :: more)) =
        '\\' :: '[' :: body ++ '[' :: ('/' :: tag ++ ']' :: more) := rfl
    have hend : ('\\' :: '[' :: body).getLast? ≠ some '\\' := by
      cases body with
      | nil => decide
      | cons c body => simpa using hlast
    have hclosing := Page.readText_closing (p := q) List.not_mem_nil nofun htag
      (hsame.trans hopened) more
    rw [hwhole, Page.readText_bracket hend, hq]
    exact hclosing.trans (Page.readText_unmarked hmore.toUnmarked _)
  · rw [Page.undrawn_after_put, hescaped]

/-- A text that stands before others and leaves their markup and their pictures alone. -/
structure Leads (a : List Char) : Prop where
  free : '[' ∉ a
  bare : ':' ∉ a
  last : a.getLast? ≠ some '\\'
  inert : Inert a

theorem Leads.inert_iff (h : Leads a) : Inert (a ++ body) ↔ Inert body :=
  inert_append h.free h.last h.inert

/-- A text in a style, with `a` before the style and `lead` before the text in it. -/
theorem visible_styled {lead : List Char} (htag : Opens tag) (hplain : '\\' ∉ tag ∧ ':' ∉ tag)
    (ha : Leads a) (hlead : Leads lead)
    (ht : t.toList = a ++ '[' :: (tag ++ ']' :: (lead ++ s.toList ++ '[' :: ('/' :: tag ++ [']']))))
    (hv : v.toList = a ++ (lead ++ s.toList)) :
    visible e t = .ok v ↔ Inert (s.toList ++ ['[']) ∧ Undrawn e s := by
  let p := (Page.empty.put a).after [Page.styleName tag]
  have hopening : Page.empty.readText t.toList =
      p.readText (lead ++ s.toList ++ '[' :: ('/' :: tag ++ [']'])) := by
    rw [ht]
    exact Page.readText_opening ha.free ha.last htag .empty _
  have hwhole : Inert (lead ++ s.toList ++ ['[']) ↔ Inert (s.toList ++ ['[']) := by
    rw [List.append_assoc, hlead.inert_iff]
  have hclosing : p.Shows (lead ++ s.toList ++ '[' :: ('/' :: tag ++ [']']))
      (lead ++ s.toList ++ []) ↔ Inert (lead ++ s.toList ++ ['[']) ∧ Inert [] :=
    Page.shows_closing rfl htag.bare hplain.1
  rw [List.append_nil, and_iff_left (by decide), hwhole] at hclosing
  have hcolons : t.toList.count ':' ≤ v.toList.count ':' := by
    have hnone := List.count_eq_zero.mpr hplain.2
    simp [ht, hv, hnone]
  rw [visible_iff_shows hcolons, hv, Page.shows_append (fun _ => Page.sees_congr hopening)
    (Page.seen_put .empty a) ha.inert, hclosing]
  refine and_congr_right fun hbody => ?_
  have hpage : page t = .ok ((p.put (lead ++ s.toList)).after []) := by
    rw [page_eq, hopening]
    exact Page.readText_around (hwhole.mpr hbody) (by decide) htag.bare rfl
  have hbefore : (Page.empty.put a).Undrawn e :=
    Page.colonFree_empty.undrawn_put.mpr (Emoji.draw_free ha.bare)
  rw [undrawn_of_page hpage, Page.undrawn_after, Page.undrawn_after_put, and_iff_right hbefore,
    Emoji.append_draw hlead.bare, List.append_cancel_left_eq,
    undrawn_iff (inert_bracket.mp hbody).1.toUnmarked]

end SchemaCompiler.Markup
