import SchemaCompiler.Proofs.Terminal.Markup
import SchemaCompiler.Proofs.Terminal.Pictures
import SchemaCompiler.Proofs.Rendering.Patterns

/-!
What is seen of a marked text. Reading only adds to what has been seen, and the tags of a style with the
plain text between them add that text. The name of a picture gives way to it unless a tag cuts the name.
-/
namespace SchemaCompiler.Markup

variable {p q : Page} {outer : List String} {start before tag cut more : List Char}
  {rest : List (List Char)}

namespace Page

/-- The visible characters so far, the last one first, before pictures take the place of names. -/
def seen (p : Page) : List Char := p.piece ++ p.pieces.flatten

@[simp]
theorem seen_empty : empty.seen = [] := rfl

@[simp]
theorem seen_put (p : Page) (cs : List Char) : (p.put cs).seen = cs.reverse ++ p.seen :=
  List.append_assoc _ _ _

@[simp]
theorem seen_cut (p : Page) : p.cut.seen = p.seen := rfl

/-- The page after a tag: the next piece begins, and other styles are open. -/
def after (p : Page) (opened : List String) : Page := { p.cut with opened }

@[simp]
theorem seen_after (p : Page) (opened : List String) : (p.after opened).seen = p.seen := rfl

theorem put_put (p : Page) (a b : List Char) : (p.put a).put b = p.put (a ++ b) := by
  simp [put]

theorem seen_apply (h : p.apply tag = .ok q) : q.seen = p.seen := by
  rw [apply.eq_def] at h
  split at h
  · dsimp only at h
    split at h
    · split at h
      · cases h
      · cases h
        rfl
    · split at h
      · cases h
        rfl
      · cases h
  · cases h
    rfl

/-- A page that goes on from another one: its pieces are those of the other page, of which the last one
can be longer, and later ones. -/
def Continues (p q : Page) : Prop :=
  ∃ later piece, q.piece :: q.pieces = later ++ piece :: p.pieces ∧ p.piece <:+ piece

theorem Continues.trans {r : Page} (h : Continues p q) (hmore : Continues q r) : Continues p r := by
  obtain ⟨later, piece, hpieces, hpiece⟩ := h
  obtain ⟨later', piece', hpieces', hpiece'⟩ := hmore
  cases later with
  | nil =>
    obtain ⟨hlast, hothers⟩ := List.cons.inj hpieces
    exact ⟨later', piece', by rw [hpieces', hothers], hpiece.trans (hlast ▸ hpiece')⟩
  | cons last later =>
    obtain ⟨-, hothers⟩ := List.cons.inj hpieces
    exact ⟨later' ++ piece' :: later, piece, by rw [hpieces', hothers]; simp, hpiece⟩

theorem continues_put (p : Page) (cs : List Char) : Continues p (p.put cs) :=
  ⟨[], _, rfl, List.suffix_append _ _⟩

theorem continues_cut (p : Page) : Continues p p.cut := ⟨[[]], p.piece, rfl, List.suffix_rfl⟩

theorem continues_apply (h : p.apply tag = .ok q) : Continues p q := by
  have hsame : q.piece = p.piece ∧ q.pieces = p.pieces := by
    rw [apply.eq_def] at h
    split at h
    · dsimp only at h
      split at h
      · split at h
        · cases h
        · cases h
          exact ⟨rfl, rfl⟩
      · split at h
        · cases h
          exact ⟨rfl, rfl⟩
        · cases h
    · cases h
      exact ⟨rfl, rfl⟩
  exact ⟨[], p.piece, by rw [hsame.1, hsame.2]; rfl, List.suffix_rfl⟩

theorem continues_read (h : p.read before rest = .ok q) : Continues p q := by
  induction rest generalizing p before with
  | nil =>
    cases h
    exact continues_put _ _
  | cons cut rest ih =>
    rw [read] at h
    dsimp only at h
    split at h
    · exact ((continues_put _ _).trans (continues_put _ _)).trans (ih h)
    · have hstem (stem escape : List Char) : Continues p ((p.put stem).cut.put escape) :=
        ((continues_put p stem).trans (continues_cut _)).trans (continues_put _ escape)
      split at h
      · exact (((hstem _ _).trans (continues_put _ _)).trans (continues_cut _)).trans (ih h)
      · obtain ⟨p', hp', h⟩ := Text.bind_eq_ok_iff.mp h
        exact ((hstem _ _).trans (continues_apply hp')).trans (ih h)

theorem Continues.suffix (h : Continues p q) : p.seen <:+ q.seen := by
  obtain ⟨later, piece, hpieces, front, hpiece⟩ := h
  have hseen : q.seen = (later ++ piece :: p.pieces).flatten := hpieces ▸ rfl
  refine ⟨later.flatten ++ front, ?_⟩
  rw [hseen, List.flatten_append, List.flatten_cons, ← hpiece, seen]
  simp only [List.append_assoc]

/-- What has been seen stays. -/
theorem suffix_read (h : p.read before rest = .ok q) : p.seen <:+ q.seen := (continues_read h).suffix

section Shown

variable {e : Emoji}

/-- No name of a picture on a page gives way to it. -/
def Undrawn (e : Emoji) (p : Page) : Prop :=
  ∀ piece ∈ p.piece :: p.pieces, e.draw piece.reverse = piece.reverse

theorem drawn_cons (e : Emoji) (piece : List Char) (pieces : List (List Char)) :
    (piece :: pieces).reverse.flatMap (fun piece => e.draw piece.reverse) =
      pieces.reverse.flatMap (fun piece => e.draw piece.reverse) ++ e.draw piece.reverse := by
  simp

theorem drawn_undrawn {pieces : List (List Char)}
    (h : ∀ piece ∈ pieces, e.draw piece.reverse = piece.reverse) :
    pieces.reverse.flatMap (fun piece => e.draw piece.reverse) = pieces.flatten.reverse := by
  induction pieces with
  | nil => rfl
  | cons piece pieces ih =>
    obtain ⟨hpiece, hpieces⟩ := List.forall_mem_cons.mp h
    rw [drawn_cons, ih hpieces, hpiece, List.flatten_cons, List.reverse_append]

theorem shown_undrawn (h : p.Undrawn e) : p.shown e = p.seen.reverse := drawn_undrawn h

theorem count_drawn_le (e : Emoji) (pieces : List (List Char)) :
    (pieces.reverse.flatMap fun piece => e.draw piece.reverse).count ':' ≤
      pieces.flatten.count ':' := by
  induction pieces with
  | nil => exact Nat.le_refl 0
  | cons piece pieces ih =>
    have hpiece := e.count_draw_le piece.reverse
    rw [List.count_reverse] at hpiece
    rw [drawn_cons, List.count_append, List.flatten_cons, List.count_append]
    omega

/-- A page that keeps its colons is shown as it is. -/
theorem undrawn_of_count (h : p.seen.count ':' ≤ (p.shown e).count ':') : p.Undrawn e := by
  have hall {pieces : List (List Char)} (hcount : pieces.flatten.count ':' ≤
      (pieces.reverse.flatMap fun piece => e.draw piece.reverse).count ':') :
      ∀ piece ∈ pieces, e.draw piece.reverse = piece.reverse := by
    induction pieces with
    | nil => exact nofun
    | cons piece pieces ih =>
      have hpiece := e.count_draw_le piece.reverse
      have hpieces := count_drawn_le e pieces
      rw [List.count_reverse] at hpiece
      rw [drawn_cons, List.count_append, List.flatten_cons, List.count_append] at hcount
      refine List.forall_mem_cons.mpr ⟨Emoji.draw_of_count ?_, ih (by omega)⟩
      rw [List.count_reverse]
      omega
  exact hall h

theorem undrawn_put {a : List Char} (hpieces : ∀ piece ∈ p.pieces, ':' ∉ piece) (ha : ':' ∉ p.piece) :
    (p.put a).Undrawn e ↔ e.draw a = a := by
  have hfirst : e.draw (p.put a).piece.reverse = (p.put a).piece.reverse ↔ e.draw a = a := by
    have hpiece : (p.put a).piece.reverse = p.piece.reverse ++ a := by simp [put]
    rw [hpiece, Emoji.append_draw (by simpa using ha)]
    exact List.append_right_inj _
  rw [Undrawn, List.forall_mem_cons, hfirst]
  refine and_iff_left fun piece hpiece => Emoji.draw_free ?_
  rw [List.mem_reverse]
  exact hpieces piece hpiece

/-- The start of a page is shown as it is if it has no colon, whatever comes after it. -/
theorem Continues.prefix_shown (h : Continues p q) (hcolon : ':' ∉ p.seen) (e : Emoji) :
    p.seen.reverse <+: q.shown e := by
  obtain ⟨later, piece, hpieces, front, rfl⟩ := h
  have hpiece : ':' ∉ p.piece.reverse := fun hmem =>
    hcolon (List.mem_append_left _ (List.mem_reverse.mp hmem))
  have hothers : ∀ piece ∈ p.pieces, e.draw piece.reverse = piece.reverse := fun piece hmem =>
    Emoji.draw_free fun hc => hcolon (List.mem_append_right _
      (List.mem_flatten.mpr ⟨piece, hmem, List.mem_reverse.mp hc⟩))
  have hshown : q.shown e = p.seen.reverse ++ (e.draw front.reverse ++
      later.reverse.flatMap fun piece => e.draw piece.reverse) := by
    rw [shown, hpieces, List.reverse_append, List.flatMap_append, drawn_cons, drawn_undrawn hothers,
      List.reverse_append, Emoji.append_draw hpiece, seen, List.reverse_append]
    simp only [List.append_assoc]
  exact ⟨_, hshown.symm⟩

end Shown

theorem escape_append (h : start.getLast? ≠ some '\\') (before : List Char) :
    (start ++ before).reverse.takeWhile (· == '\\') = before.reverse.takeWhile (· == '\\') := by
  rw [List.reverse_append, List.takeWhile_append, escape_eq_nil h, List.append_nil]
  split
  · next hlength => exact ((List.takeWhile_prefix _).eq_of_length hlength).symm
  · rfl

/-- What escapes nothing is seen at once. -/
theorem read_append (h : start.getLast? ≠ some '\\') (p : Page) (before : List Char)
    (rest : List (List Char)) : p.read (start ++ before) rest = (p.put start).read before rest := by
  cases rest with
  | nil => exact congrArg Except.ok (put_put p start before).symm
  | cons cut rest =>
    have hlength := (List.takeWhile_prefix (l := before.reverse) (· == '\\')).length_le
    rw [List.length_reverse] at hlength
    rw [read, read, escape_append h]
    dsimp only
    generalize before.reverse.takeWhile (· == '\\') = escape at hlength
    split
    · have hkept : (if escape.isEmpty then start ++ before else (start ++ before).dropLast) =
          start ++ (if escape.isEmpty then before else before.dropLast) := by
        split
        · rfl
        · next hescape =>
          -- A text that escapes has a backslash.
          refine List.dropLast_append_of_ne_nil ?_
          rintro rfl
          exact hescape (List.isEmpty_iff.mpr (List.eq_nil_of_length_eq_zero (Nat.le_zero.mp hlength)))
      rw [hkept, ← put_put p start]
    · have hstem : (start ++ before).take ((start ++ before).length - escape.length) =
          start ++ before.take (before.length - escape.length) := by
        rw [List.length_append, Nat.add_sub_assoc hlength, List.take_length_add_append]
      rw [hstem, ← put_put p start]

theorem readText_append (hfree : '[' ∉ start) (hstart : start.getLast? ≠ some '\\') (p : Page)
    (cs : List Char) : p.readText (start ++ cs) = (p.put start).readText cs := by
  rw [readText, readText, cuts_append hfree, read_append hstart]

/-- A tag after a text that does not end in a backslash. -/
theorem readText_tag (hfree : '[' ∉ before) (hbefore : before.getLast? ≠ some '\\')
    (hstarts : tag.head?.any startsTag = true) (htag : '[' ∉ tag ∧ ']' ∉ tag) (p : Page)
    (more : List Char) : p.readText (before ++ '[' :: (tag ++ ']' :: more)) =
      (p.put before).cut.apply tag >>= fun p => p.readText more := by
  rw [readText, cuts_append hfree, cuts_bracket, cuts_tag htag.1, read]
  dsimp only
  rw [tag?_append hstarts htag.2, List.append_nil, escape_eq_nil hbefore]
  dsimp only
  rw [if_neg (by decide)]
  simp only [List.length_nil, Nat.sub_zero, List.take_length, List.take_nil]
  rfl

theorem readText_opening (hfree : '[' ∉ before) (hbefore : before.getLast? ≠ some '\\')
    (htag : Opens tag) (p : Page) (more : List Char) :
    p.readText (before ++ '[' :: (tag ++ ']' :: more)) =
      ((p.put before).after (styleName tag :: p.opened)).readText more := by
  rw [readText_tag hfree hbefore htag.starts htag.bare, apply_opening htag.slash]
  rfl

/-- The closing tag of the last style that was opened. -/
theorem readText_closing (hfree : '[' ∉ before) (hbefore : before.getLast? ≠ some '\\')
    (htag : '[' ∉ tag ∧ ']' ∉ tag) (hopened : p.opened = styleName tag :: outer)
    (more : List Char) : p.readText (before ++ '[' :: ('/' :: tag ++ ']' :: more)) =
      ((p.put before).after outer).readText more := by
  have happly : (p.put before).cut.apply ('/' :: tag) =
      .ok ((p.put before).after outer) := by
    have hput : (p.put before).cut.opened = styleName tag :: outer := hopened
    simp only [apply, hput]
    split
    · rfl
    · simp [after]
  rw [readText_tag hfree hbefore rfl (by simpa using htag), happly]
  rfl

end Page

variable {e : Emoji} {s v : String}

theorem visible_eq_ok : visible e s = .ok v ↔
    ∃ p, Page.empty.readText s.toList = .ok p ∧ v = plain (String.ofList (p.shown e)) := by
  rw [visible, page_eq]
  refine Text.bind_eq_ok_iff.trans (exists_congr fun p => and_congr_right fun _ => ?_)
  exact ⟨fun h => (Except.ok.inj h).symm, fun h => congrArg Except.ok h.symm⟩

theorem prefix_plain (hstart : ∀ c ∈ start, isDropped c = false) (h : start <+: s.toList) :
    start <+: (plain s).toList := by
  obtain ⟨more, hs⟩ := h
  rw [plain, String.toList_ofList, ← hs, List.filter_append,
    List.filter_eq_self.mpr fun c hc => by rw [hstart c hc]; rfl]
  exact List.prefix_append _ _

end SchemaCompiler.Markup
