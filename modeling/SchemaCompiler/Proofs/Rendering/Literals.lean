import SchemaCompiler.Proofs.Rendering.Leaves

/-!
String literals, read as the target language reads them. Quotes, backslashes and line feeds are
escaped and read back, and a carriage return, which is not escaped, cuts a literal off.
-/
namespace SchemaCompiler

namespace Literal

variable {cs rest : List Char} {value after : List Char}

/-- Puts a text in the place of every occurrence of a character. -/
def replaced (old : Char) (new cs : List Char) : List Char :=
  cs.flatMap fun c => if c = old then new else [c]

/-- To escape all characters at once is to escape first the backslashes, so that those of the other
escapes are left alone, then the quotes and then the line feeds. -/
theorem escaped_eq_replaced (cs : List Char) : cs.flatMap escape =
    replaced '\n' ['\\', 'n'] (replaced '\x27' ['\\', '\x27'] (replaced '\\' ['\\', '\\'] cs)) := by
  rw [replaced, replaced, replaced, List.flatMap_assoc, List.flatMap_assoc]
  congr 1
  funext c
  fun_cases escape c with
  | case1 hslash =>
    rw [beq_iff_eq.mp hslash]
    rfl
  | case2 _ hquote =>
    rw [beq_iff_eq.mp hquote]
    rfl
  | case3 _ _ hline =>
    rw [beq_iff_eq.mp hline]
    rfl
  | case4 hslash hquote hline =>
    rw [beq_iff_eq] at hslash hquote hline
    simp [hslash, hquote, hline]

/-- The text that a character stands for behind a backslash. A line end stands for nothing; an escape
that gives a character by its number is not read. -/
def escaped? : Char → Option (List Char)
  | 'b' => some ['\x08']
  | 't' => some ['\t']
  | 'n' => some ['\n']
  | 'v' => some ['\x0b']
  | 'f' => some ['\x0c']
  | 'r' => some ['\r']
  | '\n' | '\r' | '\u2028' | '\u2029' => some []
  | c => if c.isDigit || c == 'x' || c == 'u' then none else some [c]

/-- The text of a string literal and what follows it, from behind the opening quote. There is none
when the line or the source ends before the closing quote. -/
def readBody : List Char → Option (List Char × List Char)
  | [] => none
  | '\x27' :: rest => some ([], rest)
  | '\\' :: '\r' :: '\n' :: rest => readBody rest
  | '\\' :: c :: rest => do
    let escaped ← escaped? c
    let (value, after) ← readBody rest
    return (escaped ++ value, after)
  | c :: rest =>
    if c == '\n' || c == '\r' then none
    else (readBody rest).map fun (value, after) => (c :: value, after)

/-- The text of a string literal at the start of a source, and what follows it. -/
def readLiteral : List Char → Option (String × List Char)
  | '\x27' :: rest => (readBody rest).map fun (value, after) => (.ofList value, after)
  | _ => none

theorem readBody_escape (c : Char) (more : List Char) : readBody (escape c ++ more) =
    if c = '\r' then none
    else (readBody more).map fun (value, after) => (c :: value, after) := by
  fun_cases escape c with
  | case1 hslash =>
    rw [beq_iff_eq.mp hslash]
    cases h : readBody more <;> simp [readBody, escaped?, h]
  | case2 _ hquote =>
    rw [beq_iff_eq.mp hquote]
    cases h : readBody more <;> simp [readBody, escaped?, h]
  | case3 _ _ hline =>
    rw [beq_iff_eq.mp hline]
    cases h : readBody more <;> simp [readBody, escaped?, h]
  | case4 hslash hquote hline =>
    rw [beq_iff_eq] at hslash hquote hline
    simp [readBody, hslash, hline]

theorem readBody_escaped (cs rest : List Char) :
    readBody (cs.flatMap escape ++ '\x27' :: rest) =
      if '\r' ∈ cs then none else some (cs, rest) := by
  induction cs with
  | nil => rfl
  | cons c cs ih =>
    rw [List.flatMap_cons, List.append_assoc, readBody_escape, ih]
    by_cases hreturn : c = '\r'
    · rw [if_pos hreturn, if_pos (List.mem_cons.mpr (.inl hreturn.symm))]
    · rw [if_neg hreturn]
      have hmem : '\r' ∈ c :: cs ↔ '\r' ∈ cs := by simp [Ne.symm hreturn]
      simp only [hmem]
      split <;> rfl

theorem quote_append (s : String) (rest : List Char) : (quote s).toList ++ rest =
    '\x27' :: (s.toList.flatMap escape ++ '\x27' :: rest) := by
  rw [quote, String.toList_ofList, List.append_assoc]
  rfl

/-- A literal is read as the text that it was made from, with all that follows it left over, unless the
text has a carriage return. -/
theorem readLiteral_quote (s : String) (rest : List Char) :
    readLiteral ((quote s).toList ++ rest) =
      if '\r' ∈ s.toList then none else some (s, rest) := by
  rw [quote_append, readLiteral, readBody_escaped]
  split
  · rfl
  · simp

/-- What follows a literal is shorter than the literal with it. -/
theorem length_lt_of_readBody (h : readBody cs = some (value, after)) :
    after.length < cs.length := by
  fun_induction readBody cs generalizing value after with
  | case1 => cases h
  | case2 rest =>
    cases h
    exact Nat.lt_succ_self _
  | case3 rest ih => exact Nat.lt_add_right 2 (Nat.lt_succ_of_lt (ih h))
  | case4 c rest _ ih =>
    obtain ⟨_, _, h⟩ := Option.bind_eq_some_iff.mp h
    obtain ⟨_, hrest, h⟩ := Option.bind_eq_some_iff.mp h
    cases h
    exact Nat.lt_add_right 1 (Nat.lt_succ_of_lt (ih hrest))
  | case5 => cases h
  | case6 c rest _ _ _ _ ih =>
    obtain ⟨_, hrest, h⟩ := Option.map_eq_some_iff.mp h
    cases h
    exact Nat.lt_succ_of_lt (ih hrest)

/-- The texts of the string literals in a source, from left to right. There are none when one of them
is cut off. -/
def literals (cs : List Char) : Option (List String) :=
  match cs with
  | [] => some []
  | c :: rest =>
    if c = '\x27' then
      match h : readBody rest with
      | none => none
      | some (value, after) =>
        have := length_lt_of_readBody h
        (literals after).map (.ofList value :: ·)
    else literals rest
termination_by cs.length

theorem literals_append (h : '\x27' ∉ cs) : literals (cs ++ rest) = literals rest := by
  induction cs with
  | nil => rfl
  | cons c cs ih =>
    rw [List.mem_cons, not_or] at h
    rw [List.cons_append, literals, if_neg (Ne.symm h.1), ih h.2]

theorem literals_quote (s : String) (rest : List Char) :
    literals ((quote s).toList ++ rest) =
      if '\r' ∈ s.toList then none else (literals rest).map (s :: ·) := by
  have hbody := readBody_escaped s.toList rest
  rw [quote_append, literals, if_pos rfl]
  split
  · next h =>
    rw [h] at hbody
    split at hbody
    · next hreturn => rw [if_pos hreturn]
    · cases hbody
  · next value after h =>
    rw [h] at hbody
    split at hbody
    · cases hbody
    · next hreturn =>
      cases hbody
      rw [if_neg hreturn, String.ofList_toList]

/-- Literals with other text between them and behind them. -/
theorem literals_intercalate {sep behind closing : List Char} (hsep : '\x27' ∉ sep)
    (hbehind : '\x27' ∉ behind) (hclosing : '\x27' ∉ closing) (texts : List String) :
    literals (sep.intercalate (texts.map fun s => (quote s).toList ++ behind) ++ closing) =
      if '\r' ∈ texts.flatMap String.toList then none else some texts := by
  have hend : literals closing = some [] := by
    rw [← List.append_nil closing, literals_append hclosing, literals]
  induction texts with
  | nil =>
    rw [if_neg (by simp)]
    exact hend
  | cons s texts ih =>
    have hnext : literals (sep.intercalate ((s :: texts).map fun s => (quote s).toList ++ behind) ++
        closing) = if '\r' ∈ s.toList then none
          else (if '\r' ∈ texts.flatMap String.toList then none else some texts).map (s :: ·) := by
      cases texts with
      | nil =>
        rw [List.map_singleton, List.intercalate_singleton, List.append_assoc, literals_quote,
          literals_append hbehind, hend]
        rfl
      | cons next texts =>
        rw [← ih, List.map_cons, List.map_cons, List.intercalate_cons_cons, List.append_assoc,
          List.append_assoc, List.append_assoc, literals_quote, literals_append hbehind,
          literals_append hsep]
    rw [hnext, List.flatMap_cons]
    simp only [List.mem_append]
    by_cases hs : '\r' ∈ s.toList
    · rw [if_pos hs, if_pos (.inl hs)]
    · rw [if_neg hs]
      by_cases hrest : '\r' ∈ texts.flatMap String.toList
      · rw [if_pos hrest, if_pos (.inr hrest)]
        rfl
      · rw [if_neg hrest, if_neg (not_or.mpr ⟨hs, hrest⟩)]
        rfl

end Literal

/-- An enum of a target has its members as literals, with texts between and around them that hold no
quote. -/
theorem Target.enum_around {t : Target} (ht : t ∈ Target.all) : ∃ opening behind closing : List Char,
    '\x27' ∉ opening ∧ '\x27' ∉ behind ∧ '\x27' ∉ closing ∧ ∀ members, ∃ e,
      t.enumExpression members = .ok e ∧ e.toList = opening ++
        (", ".toList.intercalate (members.map fun m => (Literal.quote m).toList ++ behind) ++
          closing) := by
  have hplain := Target.isPlain_of_mem_all ht
  obtain ⟨opening, behind, closing, hopening, hbehind, hclosing, henum, hmember⟩ :
      ∃ opening behind closing : List Char,
        '\x27' ∉ opening ∧ '\x27' ∉ behind ∧ '\x27' ∉ closing ∧
        (∀ x, Text.fill t.enumPattern [("members", x)] =
          .ok (String.ofList opening ++ x ++ String.ofList closing)) ∧
        ∀ x, Text.fill t.memberPattern [("literal", x)] =
          .ok (String.ofList [] ++ x ++ String.ofList behind) := by
    rcases List.mem_cons.mp ht with rfl | ht
    · exact ⟨"t.keyof(\x7b".toList, ": null".toList, "\x7d)".toList, by decide, by decide,
        by decide,
        Text.fill_around _ _ ⟨"members", none, "", false⟩ hplain.enum rfl,
        Text.fill_around [] _ ⟨"literal", none, "", false⟩ hplain.member rfl⟩
    · cases List.mem_singleton.mp ht
      exact ⟨"z.enum([".toList, [], "])".toList, by decide, by decide, by decide,
        Text.fill_around _ _ ⟨"members", none, "", false⟩ hplain.enum rfl,
        Text.fill_around [] [] ⟨"literal", none, "", false⟩ hplain.member rfl⟩
  refine ⟨opening, behind, closing, hopening, hbehind, hclosing, fun members => ?_⟩
  refine ⟨_, Text.bind_eq_ok_iff.mpr ⟨members.map fun m =>
    String.ofList [] ++ Literal.quote m ++ String.ofList behind, ?_, henum _⟩, ?_⟩
  · rw [Text.mapM_eq_ok_iff, List.forall₂_map_right_iff, List.forall₂_same]
    exact fun m _ => hmember _
  · have hmembers : (members.map fun m =>
        String.ofList [] ++ Literal.quote m ++ String.ofList behind).map String.toList =
        members.map fun m => (Literal.quote m).toList ++ behind := by
      rw [List.map_map]
      refine List.map_congr_left fun m _ => ?_
      simp
    rw [String.toList_append, String.toList_append, String.toList_ofList, String.toList_ofList,
      String.toList_intercalate, hmembers, List.append_assoc]

namespace Literal

/-- A string literal, an object key that is one, and the literals of an enum, in order, are read as the
texts that they were made from, whatever follows them, exactly if these have no carriage return; with
one the literal is cut off. -/
theorem literals_exact {t : Target} (ht : t ∈ Target.all) (s : String) (rest : List Char)
    (members : List String) :
    (readLiteral ((quote s).toList ++ rest) =
      if '\r' ∈ s.toList then none else some (s, rest)) ∧
    (isIdentifier s.toList = false → readLiteral ((key s).toList ++ rest) =
      if '\r' ∈ s.toList then none else some (s, rest)) ∧
    ∃ e, t.enumExpression members = .ok e ∧ literals e.toList =
      if '\r' ∈ members.flatMap String.toList then none else some members := by
  refine ⟨readLiteral_quote s rest, fun hname => ?_, ?_⟩
  · rw [key, hname, if_neg Bool.false_ne_true]
    exact readLiteral_quote s rest
  · obtain ⟨opening, behind, closing, hopening, hbehind, hclosing, henum⟩ :=
      Target.enum_around ht
    obtain ⟨e, he, htext⟩ := henum members
    refine ⟨e, he, ?_⟩
    rw [htext, literals_append hopening]
    exact literals_intercalate (by decide) hbehind hclosing members

theorem escaped_literals_read :
    Target.zod ∈ Target.all ∧
    readLiteral ((quote "it's\n\\").toList ++ ['\x27']) = some ("it's\n\\", ['\x27']) ∧
    isIdentifier "it's\n\\".toList = false ∧
    readLiteral ((key "it's\n\\").toList ++ ['\x27']) = some ("it's\n\\", ['\x27']) ∧
    ∃ e, Target.zod.enumExpression ["', '", "", "\\'", "\u2028"] = .ok e ∧
      literals e.toList = some ["', '", "", "\\'", "\u2028"] := by
  have ht : Target.zod ∈ Target.all := List.mem_cons_of_mem _ List.mem_cons_self
  have hname : isIdentifier "it's\n\\".toList = false := by decide
  obtain ⟨hquote, hkey, henum⟩ :=
    literals_exact ht "it's\n\\" ['\x27'] ["', '", "", "\\'", "\u2028"]
  exact ⟨ht, hquote, hname, hkey hname, henum⟩

/-- A carriage return stands in a literal as it is, and the literal ends nowhere. -/
theorem carriage_return_unread :
    '\r' ∈ (quote "\r").toList ∧ readLiteral (quote "\r").toList = none := by
  decide

end Literal
end SchemaCompiler
