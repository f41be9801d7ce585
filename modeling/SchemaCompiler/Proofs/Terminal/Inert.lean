import Mathlib.Data.List.TakeWhile
import SchemaCompiler.Proofs.Terminal.Seen

/-!
Texts that markup leaves alone. Reading a text only takes characters out of it: tags, and backslashes
before brackets. So all of a text is seen just when it has neither.
-/
namespace SchemaCompiler.Markup

variable {p q : Page} {cs a b stem tag more body : List Char} {n : Nat} {outer : List String}

/-- A text without markup: no bracket starts a tag, and none follows a backslash. -/
structure Unmarked (cs : List Char) : Prop where
  unescaped : ¬ ['\\', '['] <:+: cs
  untagged : ∀ cut ∈ (cuts cs).2, tag? cut = none

/-- A text without markup and without characters that are dropped. -/
structure Inert (cs : List Char) : Prop extends Unmarked cs where
  kept : ∀ c ∈ cs, isDropped c = false

instance : DecidablePred Inert := fun cs =>
  decidable_of_iff (¬ ['\\', '['] <:+: cs ∧ (∀ cut ∈ (cuts cs).2, tag? cut = none) ∧
    cs.all (!isDropped ·) = true)
    ⟨fun ⟨hescaped, htags, hkept⟩ => ⟨⟨hescaped, htags⟩, by simpa using hkept⟩,
      fun h => ⟨h.unescaped, h.untagged, by simpa using h.kept⟩⟩

section Brackets

theorem cuts_free (h : '[' ∉ cs) : cuts cs = (cs, []) := by
  have hall := cuts_append h []
  rwa [List.append_nil, cuts, List.append_nil] at hall

theorem not_mem_cuts (cs : List Char) : '[' ∉ (cuts cs).1 := by
  induction cs with
  | nil => exact List.not_mem_nil
  | cons c cs ih =>
    by_cases hc : c = '['
    · rw [hc, cuts_bracket]
      exact List.not_mem_nil
    · rw [cuts_cons hc, List.mem_cons, not_or]
      exact ⟨Ne.symm hc, ih⟩

/-- A cut that starts with a tag. -/
theorem exists_of_tag? {cut after : List Char} (h : tag? cut = some (tag, after)) :
    cut = tag ++ ']' :: after ∧ tag.head?.any startsTag = true ∧ ']' ∉ tag := by
  have hboth : (cut.head?.any startsTag && cut.contains ']') = true := by
    by_contra hnot
    rw [tag?, if_neg hnot] at h
    cases h
  obtain ⟨hstarts, hcloses⟩ := Bool.and_eq_true_iff.mp hboth
  obtain ⟨name, rest, rfl, hname⟩ := List.eq_append_cons_of_mem (List.contains_iff_mem.mp hcloses)
  have hhead : name.head?.any startsTag = true := by
    cases name with
    | nil => simp [startsTag] at hstarts
    | cons c name => exact hstarts
  rw [tag?_append hhead hname] at h
  cases h
  exact ⟨rfl, hhead, hname⟩

/-- A text that starts with a tag. -/
theorem exists_tag {after : List Char} (h : tag? (cuts cs).1 = some (tag, after)) :
    ∃ more, cs = tag ++ ']' :: more ∧ tag.head?.any startsTag = true ∧ '[' ∉ tag ∧ ']' ∉ tag := by
  obtain ⟨hcut, hstarts, hname⟩ := exists_of_tag? h
  have hbare := not_mem_cuts cs
  obtain ⟨others, hcs⟩ := prefix_cuts cs
  rw [hcut] at hbare hcs
  refine ⟨after ++ others, ?_, hstarts, fun hmem => hbare (List.mem_append_left _ hmem), hname⟩
  rw [← hcs, List.append_assoc, List.cons_append]

/-- The characters of a text before its backslashes at the end, and their number. -/
theorem exists_stem (cs : List Char) : ∃ stem n, cs = stem ++ List.replicate n '\\' ∧
    stem.getLast? ≠ some '\\' := by
  induction cs using List.reverseRecOn with
  | nil => exact ⟨[], 0, rfl, nofun⟩
  | append_singleton cs c ih =>
    by_cases hc : c = '\\'
    · obtain ⟨stem, n, rfl, hstem⟩ := ih
      refine ⟨stem, n + 1, ?_, hstem⟩
      rw [hc, List.replicate_succ', List.append_assoc]
    · exact ⟨cs ++ [c], 0, (List.append_nil _).symm, by simpa using hc⟩

/-- A text has no bracket, or a first one: one that starts no tag, or one that does. There can be
backslashes before it. -/
theorem bracketInduction {P : List Char → Prop} (free : ∀ cs, '[' ∉ cs → P cs)
    (plain : ∀ stem n more, '[' ∉ stem → stem.getLast? ≠ some '\\' → tag? (cuts more).1 = none →
      P more → P (stem ++ List.replicate n '\\' ++ '[' :: more))
    (tagged : ∀ stem n tag more, '[' ∉ stem → stem.getLast? ≠ some '\\' →
      tag.head?.any startsTag = true → '[' ∉ tag ∧ ']' ∉ tag → P more →
      P (stem ++ List.replicate n '\\' ++ '[' :: (tag ++ ']' :: more))) (cs : List Char) : P cs := by
  induction hlength : cs.length using Nat.strong_induction_on generalizing cs with
  | _ length ih =>
    subst hlength
    by_cases hbracket : '[' ∈ cs
    · obtain ⟨before, more, rfl, hbefore⟩ := List.eq_append_cons_of_mem hbracket
      obtain ⟨stem, n, rfl, hstem⟩ := exists_stem before
      have hfree : '[' ∉ stem := fun hmem => hbefore (List.mem_append_left _ hmem)
      cases htag : tag? (cuts more).1 with
      | none =>
        exact plain stem n more hfree hstem htag (ih _ (by simp; omega) more rfl)
      | some found =>
        obtain ⟨tag, after⟩ := found
        obtain ⟨rest, rfl, hstarts, hbare⟩ := exists_tag htag
        exact tagged stem n tag rest hfree hstem hstarts hbare (ih _ (by simp; omega) rest rfl)
    · exact free cs hbracket

theorem not_mem_stem (h : '[' ∉ stem) (n : Nat) : '[' ∉ stem ++ List.replicate n '\\' := by
  rw [List.mem_append, not_or]
  exact ⟨h, fun hmem => absurd (List.eq_of_mem_replicate hmem) (by decide)⟩

/-- A backslash escapes a bracket within a part of a text, or one part ends in it. -/
theorem infix_append_of_free (h : '[' ∉ a) : ['\\', '['] <:+: a ++ b ↔
    (a.getLast? = some '\\' ∧ b.head? = some '[') ∨ ['\\', '['] <:+: b := by
  induction a with
  | nil => simp
  | cons c a ih =>
    obtain ⟨hc, ha⟩ := not_or.mp (mt List.mem_cons.mpr h)
    rw [List.cons_append, List.infix_cons_iff, ih ha, List.cons_prefix_cons]
    cases a with
    | nil =>
      have hhead : ['['] <+: b ↔ b.head? = some '[' := by
        cases b with
        | nil => simp
        | cons d b => simpa [List.cons_prefix_cons] using eq_comm
      simp [hhead, @eq_comm _ '\\' c]
    | cons d a =>
      have hd : '[' ≠ d := fun heq => ha (heq ▸ List.mem_cons_self)
      simp [List.cons_prefix_cons, hd, List.getLast?_cons_cons]

theorem infix_bracket : ['\\', '['] <:+: '[' :: more ↔ ['\\', '['] <:+: more := by
  rw [List.infix_cons_iff, List.cons_prefix_cons]
  exact or_iff_right fun h => absurd h.1 (by decide)

theorem getLast?_stem (hstem : stem.getLast? ≠ some '\\') (n : Nat) :
    (stem ++ List.replicate n '\\').getLast? = some '\\' ↔ n ≠ 0 := by
  cases n with
  | zero => simpa using hstem
  | succ n => simp [List.replicate_succ', ← List.append_assoc]

theorem infix_stem (hfree : '[' ∉ stem) (hstem : stem.getLast? ≠ some '\\') :
    ['\\', '['] <:+: stem ++ List.replicate n '\\' ++ '[' :: more ↔
      n ≠ 0 ∨ ['\\', '['] <:+: more := by
  rw [infix_append_of_free (not_mem_stem hfree n), getLast?_stem hstem, infix_bracket]
  simp

theorem infix_tag (htag : '[' ∉ tag) : ['\\', '['] <:+: tag ++ ']' :: more ↔
    ['\\', '['] <:+: more := by
  have hfree : '[' ∉ tag ++ [']'] := by simpa using htag
  rw [List.append_cons, infix_append_of_free hfree]
  simp

theorem unmarked_of_free (h : '[' ∉ cs) : Unmarked cs where
  unescaped hescaped := h (hescaped.subset (by decide))
  untagged := by
    rw [cuts_free h]
    exact nofun

theorem Unmarked.of_tag (h : Unmarked (tag ++ ']' :: more)) (htag : '[' ∉ tag) : Unmarked more where
  unescaped hescaped := h.unescaped ((infix_tag htag).mpr hescaped)
  untagged := by
    have htags := h.untagged
    rwa [cuts_tag htag] at htags

theorem unmarked_plain (hfree : '[' ∉ stem) (hstem : stem.getLast? ≠ some '\\')
    (hmore : tag? (cuts more).1 = none) :
    Unmarked (stem ++ List.replicate n '\\' ++ '[' :: more) ↔ n = 0 ∧ Unmarked more := by
  have hcuts : (cuts (stem ++ List.replicate n '\\' ++ '[' :: more)).2 =
      (cuts more).1 :: (cuts more).2 := by
    rw [cuts_append (not_mem_stem hfree n), cuts_bracket]
  constructor
  · intro h
    have hescape := h.unescaped
    have htags := h.untagged
    rw [infix_stem hfree hstem, not_or, not_not] at hescape
    rw [hcuts] at htags
    exact ⟨hescape.1, hescape.2, (List.forall_mem_cons.mp htags).2⟩
  · rintro ⟨hn, h⟩
    refine ⟨?_, ?_⟩
    · rw [infix_stem hfree hstem, not_or, not_not]
      exact ⟨hn, h.unescaped⟩
    · rw [hcuts]
      exact List.forall_mem_cons.mpr ⟨hmore, h.untagged⟩

theorem not_unmarked_tagged (hfree : '[' ∉ stem) (hstarts : tag.head?.any startsTag = true)
    (htag : '[' ∉ tag ∧ ']' ∉ tag) :
    ¬ Unmarked (stem ++ List.replicate n '\\' ++ '[' :: (tag ++ ']' :: more)) := by
  intro h
  have htags := h.untagged
  rw [cuts_append (not_mem_stem hfree n), cuts_bracket, cuts_tag htag.1] at htags
  have hnone := htags _ List.mem_cons_self
  rw [tag?_append hstarts htag.2] at hnone
  cases hnone

end Brackets

namespace Page

/-- The backslashes at the end of a text. -/
theorem escape_stem (hstem : stem.getLast? ≠ some '\\') (n : Nat) :
    (stem ++ List.replicate n '\\').reverse.takeWhile (· == '\\') = List.replicate n '\\' := by
  have hall : ∀ c ∈ List.replicate n '\\', (c == '\\') = true := by
    intro c hc
    rw [List.eq_of_mem_replicate hc]
    rfl
  rw [List.reverse_append, List.reverse_replicate, List.takeWhile_append_of_pos hall,
    escape_eq_nil hstem, List.append_nil]

theorem readText_of_free (h : '[' ∉ cs) (p : Page) : p.readText cs = .ok (p.put cs) := by
  rw [readText, cuts_free h]
  rfl

/-- A bracket that starts no tag is seen, and one backslash before it is not. -/
theorem readText_plain (hfree : '[' ∉ stem) (hstem : stem.getLast? ≠ some '\\')
    (hmore : tag? (cuts more).1 = none) (n : Nat) (p : Page) :
    p.readText (stem ++ List.replicate n '\\' ++ '[' :: more) =
      (p.put (stem ++ List.replicate (n - 1) '\\' ++ ['['])).readText more := by
  rw [readText, cuts_append (not_mem_stem hfree n), cuts_bracket, List.append_nil, read]
  dsimp only
  rw [hmore, escape_stem hstem]
  dsimp only
  rw [put_put]
  cases n with
  | zero => rfl
  | succ n =>
    rw [if_neg (by simp [List.replicate_succ]), List.replicate_succ', ← List.append_assoc,
      List.dropLast_concat]
    rfl

/-- A tag is not seen, unless it is escaped, and of the backslashes before it half are. -/
theorem readText_tagged (hfree : '[' ∉ stem) (hstem : stem.getLast? ≠ some '\\')
    (hstarts : tag.head?.any startsTag = true) (htag : '[' ∉ tag ∧ ']' ∉ tag) (n : Nat) (p : Page)
    (more : List Char) :
    p.readText (stem ++ List.replicate n '\\' ++ '[' :: (tag ++ ']' :: more)) =
      let p := (p.put stem).cut.put (List.replicate (n / 2) '\\')
      if n % 2 = 1 then (p.put ('[' :: tag ++ [']'])).cut.readText more
      else p.apply tag >>= fun p => p.readText more := by
  have hhalf : (List.replicate n '\\').take (n / 2) = List.replicate (n / 2) '\\' := by
    rw [List.take_replicate, Nat.min_eq_left (Nat.div_le_self n 2)]
  rw [readText, cuts_append (not_mem_stem hfree n), cuts_bracket, List.append_nil, cuts_tag htag.1,
    read]
  dsimp only
  rw [tag?_append hstarts htag.2, escape_stem hstem]
  dsimp only
  rw [List.length_append, List.length_replicate, Nat.add_sub_cancel, List.take_left, hhalf]
  simp only [put_put, List.append_assoc]
  by_cases hodd : n % 2 = 1
  · rw [if_pos hodd, if_pos (beq_iff_eq.mpr hodd)]
    rfl
  · rw [if_neg hodd, if_neg (mt beq_iff_eq.mp hodd)]
    rfl

theorem readText_unmarked (h : Unmarked cs) (p : Page) : p.readText cs = .ok (p.put cs) := by
  induction cs using bracketInduction generalizing p with
  | free cs hfree => exact readText_of_free hfree p
  | plain stem n more hfree hstem hmore ih =>
    obtain ⟨rfl, hrest⟩ := (unmarked_plain hfree hstem hmore).mp h
    rw [readText_plain hfree hstem hmore, ih hrest, put_put]
    simp
  | tagged stem n tag more hfree hstem hstarts htag ih =>
    exact absurd h (not_unmarked_tagged hfree hstarts htag)

/-- Pages that differ only in where their pieces end. -/
structure Alike (p q : Page) : Prop where
  opened : p.opened = q.opened
  seen : p.seen = q.seen

namespace Alike

variable {p' : Page}

theorem symm (h : Alike p q) : Alike q p := ⟨h.opened.symm, h.seen.symm⟩

theorem put (h : Alike p q) (cs : List Char) : Alike (p.put cs) (q.put cs) :=
  ⟨h.opened, by rw [seen_put, seen_put, h.seen]⟩

theorem cut (h : Alike p q) : Alike p.cut q.cut := ⟨h.opened, h.seen⟩

theorem apply (h : Alike p q) (hp : p.apply tag = .ok p') :
    ∃ q', q.apply tag = .ok q' ∧ Alike p' q' := by
  rw [apply.eq_def] at hp ⊢
  rw [← h.opened]
  split at hp
  · dsimp only at hp ⊢
    split at hp
    · next hname =>
      rw [if_pos hname]
      split at hp
      · cases hp
      · cases hp
        exact ⟨_, rfl, rfl, h.seen⟩
    · next hname =>
      rw [if_neg hname]
      split at hp
      · next hopened =>
        cases hp
        rw [if_pos hopened]
        exact ⟨_, rfl, rfl, h.seen⟩
      · cases hp
  · cases hp
    exact ⟨_, rfl, rfl, h.seen⟩

theorem read {before : List Char} {rest : List (List Char)} (h : Alike p q)
    (hp : p.read before rest = .ok p') : ∃ q', q.read before rest = .ok q' ∧ Alike p' q' := by
  induction rest generalizing p q before with
  | nil =>
    cases hp
    exact ⟨_, rfl, h.put before⟩
  | cons cut rest ih =>
    rw [Page.read] at hp ⊢
    dsimp only at hp ⊢
    split at hp
    · exact ih ((h.put _).put _) hp
    · split at hp
      · next hodd =>
        rw [if_pos hodd]
        exact ih (((h.put _).cut.put _).put _).cut hp
      · next hodd =>
        rw [if_neg hodd]
        obtain ⟨p₁, happly, hp⟩ := Text.bind_eq_ok_iff.mp hp
        obtain ⟨q₁, happly', hsame⟩ := ((h.put _).cut.put _).apply happly
        rw [happly']
        exact ih hsame hp

end Alike

/-- Reading a text from a page goes through, and these are the characters seen then. -/
def Sees (p : Page) (cs seen : List Char) : Prop := ∃ q, p.readText cs = .ok q ∧ q.seen = seen

theorem Alike.sees {seen : List Char} (h : Alike p q) : p.Sees cs seen ↔ q.Sees cs seen := by
  constructor
  · rintro ⟨p', hread, rfl⟩
    obtain ⟨q', hread', hsame⟩ := h.read hread
    exact ⟨q', hread', hsame.seen.symm⟩
  · rintro ⟨q', hread, rfl⟩
    obtain ⟨p', hread', hsame⟩ := h.symm.read hread
    exact ⟨p', hread', hsame.seen.symm⟩

theorem sees_congr {p' : Page} {more seen : List Char} (h : p.readText cs = p'.readText more) :
    p.Sees cs seen ↔ p'.Sees more seen := by
  rw [Sees, Sees, h]

/-- A bracket after a single backslash is seen, and starts no tag. -/
theorem sees_escaped (p : Page) (more seen : List Char) :
    p.Sees ('\\' :: '[' :: more) seen ↔ (p.put ['[']).Sees more seen := by
  cases htag : tag? (cuts more).1 with
  | none => exact sees_congr (readText_plain List.not_mem_nil nofun htag 1 p)
  | some found =>
    obtain ⟨tag, after⟩ := found
    obtain ⟨rest, rfl, hstarts, hbare⟩ := exists_tag htag
    have hfree : '[' ∉ tag ++ [']'] := by simpa using hbare.1
    have hbracket : (p.put ['[']).readText (tag ++ ']' :: rest) =
        (p.put ('[' :: tag ++ [']'])).readText rest := by
      rw [List.append_cons, readText_append hfree (by simp), put_put]
      rfl
    have hescaped : p.readText ('\\' :: '[' :: (tag ++ ']' :: rest)) =
        (p.cut.put ('[' :: tag ++ [']'])).cut.readText rest :=
      readText_tagged List.not_mem_nil nofun hstarts hbare 1 p rest
    rw [sees_congr hescaped, sees_congr hbracket]
    exact Alike.sees ⟨rfl, by rw [seen_cut, seen_put, seen_cut, seen_put]⟩

end Page

/-- What is left of a text that has been read: without some backslash where one escapes a bracket, and
without some character where there is any markup. -/
structure Left (cs shown : List Char) : Prop where
  sublist : shown.Sublist cs
  escape : ['\\', '['] <:+: cs → shown.count '\\' < cs.count '\\'
  short : ¬ Unmarked cs → shown.length < cs.length

namespace Left

variable {shown : List Char}

theorem plain (hfree : '[' ∉ stem) (hstem : stem.getLast? ≠ some '\\')
    (hmore : tag? (cuts more).1 = none) (h : Left more shown) (n : Nat) :
    Left (stem ++ List.replicate n '\\' ++ '[' :: more)
      (stem ++ List.replicate (n - 1) '\\' ++ '[' :: shown) where
  sublist := by
    have hfew := (List.replicate_sublist_replicate '\\').mpr (Nat.sub_le n 1)
    exact ((List.Sublist.refl stem).append hfew).append (h.sublist.cons_cons '[')
  escape hescaped := by
    have hcount := h.sublist.count_le '\\'
    rw [infix_stem hfree hstem] at hescaped
    simp only [List.count_append, List.count_replicate_self, List.count_cons]
    rcases hescaped with hn | hescaped
    · omega
    · have := h.escape hescaped
      omega
  short hmarked := by
    have hlength := h.sublist.length_le
    rw [unmarked_plain hfree hstem hmore, not_and_or] at hmarked
    simp only [List.length_append, List.length_replicate, List.length_cons]
    rcases hmarked with hn | hmarked
    · omega
    · have := h.short hmarked
      omega

/-- A tag that is not seen. -/
theorem tagged (hfree : '[' ∉ stem) (hstem : stem.getLast? ≠ some '\\') (htag : '[' ∉ tag)
    (h : Left more shown) (n : Nat) :
    Left (stem ++ List.replicate n '\\' ++ '[' :: (tag ++ ']' :: more))
      (stem ++ List.replicate (n / 2) '\\' ++ shown) where
  sublist := by
    have hfew := (List.replicate_sublist_replicate '\\').mpr (Nat.div_le_self n 2)
    have htext : more.Sublist ('[' :: (tag ++ ']' :: more)) :=
      (List.sublist_append_of_sublist_right (List.sublist_cons_self _ _)).cons _
    exact ((List.Sublist.refl stem).append hfew).append (h.sublist.trans htext)
  escape hescaped := by
    have hcount := h.sublist.count_le '\\'
    rw [infix_stem hfree hstem, infix_tag htag] at hescaped
    simp only [List.count_append, List.count_replicate_self, List.count_cons]
    rcases hescaped with hn | hescaped
    · omega
    · have := h.escape hescaped
      omega
  short _ := by
    have hlength := h.sublist.length_le
    simp only [List.length_append, List.length_replicate, List.length_cons]
    omega

/-- A tag that is escaped, and so is seen. -/
theorem escaped (h : Left more shown) (hodd : n % 2 = 1) :
    Left (stem ++ List.replicate n '\\' ++ '[' :: (tag ++ ']' :: more))
      (stem ++ List.replicate (n / 2) '\\' ++ '[' :: (tag ++ ']' :: shown)) where
  sublist := by
    have hfew := (List.replicate_sublist_replicate '\\').mpr (Nat.div_le_self n 2)
    have htext := (List.Sublist.refl tag).append (h.sublist.cons_cons ']')
    exact ((List.Sublist.refl stem).append hfew).append (htext.cons_cons '[')
  escape _ := by
    have hcount := h.sublist.count_le '\\'
    simp only [List.count_append, List.count_replicate_self, List.count_cons]
    omega
  short _ := by
    have hlength := h.sublist.length_le
    simp only [List.length_append, List.length_replicate, List.length_cons]
    omega

/-- A text of which all is left is without markup. -/
theorem inert (h : Left cs shown) (hshown : shown.filter (!isDropped ·) = cs) : Inert cs := by
  have hlength : cs.length ≤ shown.length := by
    rw [← hshown]
    exact List.length_filter_le _ _
  have hall : shown = cs := h.sublist.eq_of_length_le hlength
  rw [hall] at hshown
  refine ⟨by_contra fun hmarked => ?_, fun c hc => ?_⟩
  · have hshort := h.short hmarked
    omega
  · simpa using List.filter_eq_self.mp hshown c hc

theorem inert_of_append {left left' : List Char} (h : Left a left) (h' : Left b left')
    (htext : (left ++ left').filter (!isDropped ·) = a ++ b) : Inert a ∧ Inert b := by
  rw [List.filter_append] at htext
  have hlength := congrArg List.length htext
  have hfilter := List.length_filter_le (!isDropped ·) left
  have hfilter' := List.length_filter_le (!isDropped ·) left'
  have hshort := h.sublist.length_le
  have hshort' := h'.sublist.length_le
  rw [List.length_append, List.length_append] at hlength
  obtain ⟨ha, hb⟩ := List.append_inj htext (by omega)
  exact ⟨h.inert ha, h'.inert hb⟩

end Left

namespace Page

theorem exists_left (h : p.readText cs = .ok q) :
    ∃ shown, q.seen = shown.reverse ++ p.seen ∧ Left cs shown := by
  induction cs using bracketInduction generalizing p with
  | free cs hfree =>
    rw [readText_of_free hfree] at h
    cases h
    have hunmarked := unmarked_of_free hfree
    exact ⟨cs, seen_put p cs, List.Sublist.refl cs, fun hescaped => absurd hescaped hunmarked.unescaped,
      fun hnot => absurd hunmarked hnot⟩
  | plain stem n more hfree hstem hmore ih =>
    rw [readText_plain hfree hstem hmore] at h
    obtain ⟨shown, hseen, hleft⟩ := ih h
    exact ⟨_, by simp [hseen], hleft.plain hfree hstem hmore n⟩
  | tagged stem n tag more hfree hstem hstarts htag ih =>
    rw [readText_tagged hfree hstem hstarts htag] at h
    dsimp only at h
    split at h
    · next hodd =>
      obtain ⟨shown, hseen, hleft⟩ := ih h
      exact ⟨_, by simp [hseen], hleft.escaped hodd⟩
    · obtain ⟨p', happly, h⟩ := Text.bind_eq_ok_iff.mp h
      obtain ⟨shown, hseen, hleft⟩ := ih h
      exact ⟨_, by simp [hseen, seen_apply happly], hleft.tagged hfree hstem htag.1 n⟩

/-- A text before a bracket is read by itself, unless it ends in a backslash. -/
theorem readText_bracket (h : a.getLast? ≠ some '\\') (p : Page) (b : List Char) :
    p.readText (a ++ '[' :: b) = p.readText a >>= fun p => p.readText ('[' :: b) := by
  have hlast {front rest : List Char} {c : Char}
      (hwhole : (front ++ c :: rest).getLast? ≠ some '\\') : rest.getLast? ≠ some '\\' := by
    cases rest with
    | nil => exact nofun
    | cons d rest => simpa using hwhole
  induction a using bracketInduction generalizing p with
  | free a hfree =>
    rw [readText_append hfree h, readText_of_free hfree]
    rfl
  | plain stem n more hfree hstem hmore ih =>
    have hcut : tag? (cuts (more ++ '[' :: b)).1 = none := by rwa [cuts_append_bracket]
    rw [List.append_assoc, List.cons_append, readText_plain hfree hstem hcut,
      readText_plain hfree hstem hmore, ih (hlast h)]
  | tagged stem n tag more hfree hstem hstarts htag ih =>
    have hwhole : stem ++ List.replicate n '\\' ++ '[' :: (tag ++ ']' :: more) ++ '[' :: b =
        stem ++ List.replicate n '\\' ++ '[' :: (tag ++ ']' :: (more ++ '[' :: b)) := by simp
    rw [hwhole, readText_tagged hfree hstem hstarts htag, readText_tagged hfree hstem hstarts htag]
    dsimp only
    split
    · exact ih (hlast (hlast h)) _
    · cases ((p.put _).cut.put _).apply tag with
      | error e => rfl
      | ok p' => exact ih (hlast (hlast h)) p'

end Page

section Inert

theorem Inert.filter (h : Inert cs) : cs.filter (!isDropped ·) = cs :=
  List.filter_eq_self.mpr fun c hc => by rw [h.kept c hc]; rfl

theorem inert_append (hfree : '[' ∉ a) (hlast : a.getLast? ≠ some '\\') (ha : Inert a) :
    Inert (a ++ b) ↔ Inert b := by
  have hescaped : ['\\', '['] <:+: a ++ b ↔ ['\\', '['] <:+: b := by
    rw [infix_append_of_free hfree]
    exact or_iff_right fun h => hlast h.1
  have hcuts : (cuts (a ++ b)).2 = (cuts b).2 := by rw [cuts_append hfree]
  constructor
  · intro h
    exact ⟨⟨mt hescaped.mpr h.unescaped, hcuts ▸ h.untagged⟩,
      (List.forall_mem_append.mp h.kept).2⟩
  · intro h
    exact ⟨⟨mt hescaped.mp h.unescaped, hcuts.symm ▸ h.untagged⟩,
      List.forall_mem_append.mpr ⟨ha.kept, h.kept⟩⟩

/-- A bracket behind a text must not be escaped by it. -/
theorem inert_bracket : Inert (body ++ ['[']) ↔ Inert body ∧ body.getLast? ≠ some '\\' := by
  have hescaped : ['\\', '['] <:+: body ++ ['['] ↔
      body.getLast? = some '\\' ∨ ['\\', '['] <:+: body := by
    rw [List.infix_concat_iff]
    refine or_congr_left ⟨?_, fun hlast => ?_⟩
    · rintro ⟨front, hfront⟩
      rw [List.append_cons, List.append_left_inj] at hfront
      simp [← hfront]
    · obtain ⟨front, rfl⟩ := List.getLast?_eq_some_iff.mp hlast
      exact ⟨front, by simp⟩
  have hcuts : (cuts (body ++ ['['])).2 = (cuts body).2 ++ [[]] := by
    rw [cuts_append_bracket]
    rfl
  constructor
  · intro h
    have hnot := not_or.mp (mt hescaped.mpr h.unescaped)
    refine ⟨⟨⟨hnot.2, fun cut hcut => h.untagged cut ?_⟩, ?_⟩, hnot.1⟩
    · exact hcuts ▸ List.mem_append_left _ hcut
    · exact (List.forall_mem_append.mp h.kept).1
  · rintro ⟨h, hlast⟩
    refine ⟨⟨mt hescaped.mp (not_or.mpr ⟨hlast, h.unescaped⟩), ?_⟩, ?_⟩
    · rw [hcuts, List.forall_mem_append]
      exact ⟨h.untagged, by simp [tag?]⟩
    · rw [List.forall_mem_append]
      exact ⟨h.kept, List.forall_mem_singleton.mpr (by decide)⟩

end Inert

section Shows

variable {text : List Char} {p' : Page}

/-- What a text adds to what is seen of a page, without the characters that are dropped. -/
def Page.Shows (p : Page) (cs text : List Char) : Prop := ∃ shown : List Char,
  p.Sees cs (shown.reverse ++ p.seen) ∧ shown.filter (!isDropped ·) = text

theorem Page.Sees.suffix {seen : List Char} (h : p.Sees cs seen) : p.seen <:+ seen := by
  obtain ⟨q, hread, rfl⟩ := h
  exact suffix_read hread

/-- The start of a text that is seen as it is. -/
theorem Page.shows_append (hread : ∀ seen, p.Sees cs seen ↔ p'.Sees more seen)
    (hseen : p'.seen = a.reverse ++ p.seen) (ha : Inert a) :
    p.Shows cs (a ++ text) ↔ p'.Shows more text := by
  constructor
  · rintro ⟨shown, hsees, htext⟩
    rw [hread] at hsees
    obtain ⟨rest, hrest⟩ := hsees.suffix
    have hboth : shown = a ++ rest.reverse := by
      rw [hseen, ← List.append_assoc, List.append_left_inj] at hrest
      rw [← List.reverse_reverse shown, ← hrest, List.reverse_append, List.reverse_reverse]
    rw [hboth, List.filter_append, ha.filter, List.append_cancel_left_eq] at htext
    exact ⟨rest.reverse, by rwa [List.reverse_reverse, hrest], htext⟩
  · rintro ⟨shown, hsees, htext⟩
    refine ⟨a ++ shown, (hread _).mpr ?_, ?_⟩
    · rwa [List.reverse_append, List.append_assoc, ← hseen]
    · rw [List.filter_append, ha.filter, htext]

/-- What has been read of a text, with what is left of it. -/
theorem Page.Sees.left {shown : List Char} (h : p.Sees cs (shown.reverse ++ p.seen)) :
    Left cs shown := by
  obtain ⟨q, hq, hseen⟩ := h
  obtain ⟨left, hleft, h⟩ := exists_left hq
  rw [hseen, List.append_left_inj, List.reverse_inj] at hleft
  exact hleft ▸ h

/-- A text is seen as it is just when it is inert. -/
theorem Page.shows_self (p : Page) : p.Shows cs cs ↔ Inert cs := by
  constructor
  · rintro ⟨shown, hsees, htext⟩
    exact hsees.left.inert htext
  · intro h
    exact ⟨cs, ⟨_, readText_unmarked h.toUnmarked p, seen_put p cs⟩, h.filter⟩

/-- A text that escapes the bracket behind it is not seen as it is. -/
theorem Page.not_shows_escaped (hlast : body.getLast? = some '\\') (htag : '\\' ∉ tag) :
    ¬ p.Shows (body ++ '[' :: ('/' :: tag ++ ']' :: more)) (body ++ more) := by
  rintro ⟨shown, hsees, htext⟩
  obtain ⟨front, rfl⟩ := List.getLast?_eq_some_iff.mp hlast
  have hfewer := hsees.left.escape ⟨front, '/' :: tag ++ ']' :: more, by simp⟩
  have hkept := (List.filter_sublist (p := (!isDropped ·)) (l := shown)).count_le '\\'
  rw [htext] at hkept
  have hnone : tag.count '\\' = 0 := List.count_eq_zero.mpr htag
  simp only [List.count_append, List.count_cons, hnone, List.cons_append] at hfewer hkept
  simp at hfewer hkept
  omega

/-- Inert texts around the closing tag of a style are read as they are. -/
theorem Page.readText_around (hbody : Inert (body ++ ['['])) (hmore : Inert more)
    (htag : '[' ∉ tag ∧ ']' ∉ tag) (hopened : p.opened = styleName tag :: outer) :
    p.readText (body ++ '[' :: ('/' :: tag ++ ']' :: more)) =
      .ok (((p.put body).after outer).put more) := by
  obtain ⟨hinert, hlast⟩ := inert_bracket.mp hbody
  have hclosing := readText_closing (p := p.put body) List.not_mem_nil nofun htag hopened more
  rw [readText_bracket hlast, readText_unmarked hinert.toUnmarked]
  exact hclosing.trans (readText_unmarked hmore.toUnmarked _)

/-- A text before the closing tag of its style, and the text after it. -/
theorem Page.shows_closing (hopened : p.opened = styleName tag :: outer)
    (htag : '[' ∉ tag ∧ ']' ∉ tag) (hplain : '\\' ∉ tag) :
    p.Shows (body ++ '[' :: ('/' :: tag ++ ']' :: more)) (body ++ more) ↔
      Inert (body ++ ['[']) ∧ Inert more := by
  have hname : '[' ∉ '/' :: tag ∧ ']' ∉ '/' :: tag := by simpa using htag
  constructor
  · intro h
    have hlast : body.getLast? ≠ some '\\' := fun hlast => not_shows_escaped hlast hplain h
    obtain ⟨shown, ⟨q, hq, hseen⟩, htext⟩ := h
    rw [readText_bracket hlast] at hq
    obtain ⟨p₁, hbody, hq⟩ := Text.bind_eq_ok_iff.mp hq
    have hclosing := readText_tag List.not_mem_nil nofun rfl hname p₁ more
    obtain ⟨p₂, happly, hmore⟩ := Text.bind_eq_ok_iff.mp (hclosing.symm.trans hq)
    obtain ⟨left, hleft, hfirst⟩ := exists_left hbody
    obtain ⟨left', hleft', hsecond⟩ := exists_left hmore
    have hboth : shown = left ++ left' := by
      rw [hseen, seen_apply happly] at hleft'
      change _ = left'.reverse ++ p₁.seen at hleft'
      rw [hleft, ← List.append_assoc, List.append_left_inj, ← List.reverse_append,
        List.reverse_inj] at hleft'
      exact hleft'
    obtain ⟨hbody, hmore⟩ := hfirst.inert_of_append hsecond (hboth ▸ htext)
    exact ⟨inert_bracket.mpr ⟨hbody, hlast⟩, hmore⟩
  · rintro ⟨hbody, hmore⟩
    refine ⟨body ++ more, ⟨_, readText_around hbody hmore htag hopened, ?_⟩, ?_⟩
    · rw [seen_put, seen_after, seen_put, List.reverse_append, List.append_assoc]
    · rw [List.filter_append, (inert_bracket.mp hbody).1.filter, hmore.filter]

end Shows

end SchemaCompiler.Markup
