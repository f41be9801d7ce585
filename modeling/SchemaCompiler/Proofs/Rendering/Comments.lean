import Mathlib.Data.List.Infix
import Mathlib.Data.List.TakeWhile
import SchemaCompiler.Proofs.Layout.Modes

/-!
Comment blocks. Descriptions are broken up where they hold the end mark of a block comment, and so the
mark can come into the comment of a declaration only through the names of its fields and the texts
that stand in their static types.
-/
namespace SchemaCompiler

namespace DocComment

variable {cs ds before after sep : List Char} {c : Char} {lines : List String}

/-- Characters that hold the end mark of a block comment. -/
def ClosesComment (cs : List Char) : Prop := ['*', '/'] <:+: cs

instance : DecidablePred ClosesComment := fun cs => inferInstanceAs (Decidable (_ <:+: cs))

/-- What follows the first end mark. -/
def afterEnd : List Char → Option (List Char)
  | '*' :: '/' :: rest => some rest
  | _ :: rest => afterEnd rest
  | [] => none

/-- Lines in which the end mark occurs at the end of the last one only. -/
def EndsLast (lines : List String) : Prop :=
  ∀ front line back before after, lines = front ++ line :: back →
    line.toList = before ++ '*' :: '/' :: after → back = [] ∧ after = []

theorem closesComment_cons :
    ClosesComment (c :: cs) ↔ (c = '*' ∧ cs.head? = some '/') ∨ ClosesComment cs := by
  have hstart : ['*', '/'] <+: c :: cs ↔ c = '*' ∧ cs.head? = some '/' := by
    cases cs with
    | nil => simp
    | cons d cs => simp [List.cons_prefix_cons, eq_comm]
  rw [ClosesComment, List.infix_cons_iff, hstart, ClosesComment]

theorem not_closesComment_of_not_mem (h : '*' ∉ cs) : ¬ ClosesComment cs :=
  fun hcloses => h (hcloses.subset List.mem_cons_self)

/-- A mark in two texts one behind the other is in one of them, or where they meet. -/
theorem closesComment_append : ClosesComment (cs ++ ds) ↔
    ClosesComment cs ∨ ClosesComment ds ∨ (cs.getLast? = some '*' ∧ ds.head? = some '/') := by
  induction cs with
  | nil => simp [ClosesComment]
  | cons c cs ih =>
    rw [List.cons_append, closesComment_cons, ih, closesComment_cons]
    cases cs with
    | nil => simp [ClosesComment, or_comm]
    | cons d cs => simp [or_assoc]

/-- A text that takes no part in an end mark, whatever stands before it and behind it. -/
structure IsSpacer (sep : List Char) : Prop where
  ne_nil : sep ≠ []
  not_closes : ¬ ClosesComment sep
  head : sep.head? ≠ some '/'
  last : sep.getLast? ≠ some '*'

theorem IsSpacer.closesComment_iff (h : IsSpacer sep) (cs ds : List Char) :
    ClosesComment (cs ++ (sep ++ ds)) ↔ ClosesComment cs ∨ ClosesComment ds := by
  have hhead : (sep ++ ds).head? ≠ some '/' := by
    obtain ⟨c, rest, rfl⟩ := List.exists_cons_of_ne_nil h.ne_nil
    exact h.head
  rw [closesComment_append, closesComment_append]
  simp only [h.not_closes, h.last, hhead, and_false, false_and, false_or, or_false]

theorem IsSpacer.closesComment_behind (h : IsSpacer sep) :
    ClosesComment (sep ++ ds) ↔ ClosesComment ds :=
  (h.closesComment_iff [] ds).trans (or_iff_right (by decide))

theorem IsSpacer.closesComment_before (h : IsSpacer sep) :
    ClosesComment (cs ++ sep) ↔ ClosesComment cs := by
  have hboth := h.closesComment_iff cs []
  rw [List.append_nil] at hboth
  exact hboth.trans (or_iff_left (by decide))

/-- Texts with a spacer between each two of them. -/
theorem IsSpacer.closesComment_intercalate (h : IsSpacer sep) (texts : List (List Char)) :
    ClosesComment (sep.intercalate texts) ↔ ∃ text ∈ texts, ClosesComment text := by
  induction texts with
  | nil => simp [ClosesComment]
  | cons text texts ih =>
    cases texts with
    | nil => simp
    | cons next texts =>
      rw [List.intercalate_cons_cons, List.append_assoc, h.closesComment_iff, ih]
      simp

/-- Blanks at the end of a text are no part of a mark. -/
theorem closesComment_trimEnd (s : String) :
    ClosesComment (Text.trimEnd s).toList ↔ ClosesComment s.toList := by
  obtain ⟨blanks, hblanks, hs⟩ : ∃ blanks : List Char, (∀ b ∈ blanks, Text.isBlank b = true) ∧
      s.toList = (Text.trimEnd s).toList ++ blanks := by
    refine ⟨(s.toList.reverse.takeWhile Text.isBlank).reverse, fun b hb => ?_, ?_⟩
    · exact List.mem_takeWhile_imp (List.mem_reverse.mp hb)
    · rw [Text.trimEnd, String.toList_ofList, Text.dropBlanksEnd, Text.dropBlanks,
        ← List.reverse_append, List.takeWhile_append_dropWhile, List.reverse_reverse]
  have hstar : '*' ∉ blanks := fun hmem => absurd (hblanks _ hmem) (by decide)
  have hslash : blanks.head? ≠ some '/' := fun hhead =>
    absurd (hblanks _ (List.mem_of_head? hhead)) (by decide)
  rw [hs, closesComment_append]
  simp only [not_closesComment_of_not_mem hstar, hslash, and_false, or_false]

theorem not_closesComment_broken (cs : List Char) :
    ¬ ClosesComment (Literal.breakCommentEnds cs) := by
  have hhead : ∀ cs, (Literal.breakCommentEnds cs).head? = cs.head? := by
    intro cs
    fun_cases Literal.breakCommentEnds cs <;> rfl
  fun_induction Literal.breakCommentEnds cs with
  | case1 rest ih =>
    rw [closesComment_cons, closesComment_cons, closesComment_cons]
    simp [ih]
  | case2 c rest hnot ih =>
    rw [closesComment_cons, hhead]
    rintro (⟨rfl, hslash⟩ | hrest)
    · obtain ⟨more, rfl⟩ := List.head?_eq_some_iff.mp hslash
      exact hnot more rfl rfl
    · exact ih hrest
  | case3 => decide

/-- No text that is broken up holds the mark. -/
theorem not_closesComment_inComment (s : String) :
    ¬ ClosesComment (Literal.inComment s).toList := by
  rw [Literal.inComment, String.toList_ofList]
  exact not_closesComment_broken s.toList

/-- A comment that is broken up to its end mark is over there. -/
theorem afterEnd_append (h : ¬ ClosesComment cs) (rest : List Char) :
    afterEnd (cs ++ '*' :: '/' :: rest) = some rest := by
  induction cs with
  | nil => rfl
  | cons c cs ih =>
    rw [closesComment_cons, not_or] at h
    rw [List.cons_append]
    unfold afterEnd
    split
    · next more heq =>
      obtain ⟨rfl, hmore⟩ := List.cons.inj heq
      cases cs with
      | nil => cases hmore
      | cons d cs =>
        cases hmore
        exact absurd ⟨rfl, rfl⟩ h.1
    · next heq =>
      cases heq
      exact ih h.2
    · next heq => cases heq

end DocComment

open DocComment

namespace Literal

/-- The characters that are escaped have no part in the mark, and neither have their escapes. -/
theorem escape_cases (c : Char) : escape c = [c] ∨
    (c ≠ '*' ∧ c ≠ '/' ∧ ∃ d, d ≠ '*' ∧ escape c = ['\\', d]) := by
  fun_cases escape c with
  | case1 hslash =>
    rw [beq_iff_eq.mp hslash]
    exact .inr ⟨by decide, by decide, '\\', by decide, rfl⟩
  | case2 _ hquote =>
    rw [beq_iff_eq.mp hquote]
    exact .inr ⟨by decide, by decide, '\x27', by decide, rfl⟩
  | case3 _ _ hline =>
    rw [beq_iff_eq.mp hline]
    exact .inr ⟨by decide, by decide, 'n', by decide, rfl⟩
  | case4 => exact .inl rfl

theorem head?_escaped (cs : List Char) :
    (cs.flatMap escape).head? = some '/' ↔ cs.head? = some '/' := by
  cases cs with
  | nil => rfl
  | cons c cs =>
    rw [List.flatMap_cons]
    rcases escape_cases c with hplain | ⟨_, hslash, d, _, hescape⟩
    · rw [hplain]
      rfl
    · rw [hescape]
      simp [hslash]

theorem closesComment_escaped (cs : List Char) :
    ClosesComment (cs.flatMap escape) ↔ ClosesComment cs := by
  induction cs with
  | nil => rfl
  | cons c cs ih =>
    rw [List.flatMap_cons, closesComment_cons (c := c)]
    rcases escape_cases c with hplain | ⟨hstar, _, d, hd, hescape⟩
    · rw [hplain, List.singleton_append, closesComment_cons, head?_escaped, ih]
    · rw [hescape, List.cons_append, List.singleton_append, closesComment_cons,
        closesComment_cons, ih]
      simp [hstar, hd]

/-- A string literal holds the mark where its text does. -/
theorem closesComment_quote (s : String) :
    ClosesComment (quote s).toList ↔ ClosesComment s.toList := by
  have hquote : IsSpacer ['\x27'] := ⟨by decide, by decide, by decide, by decide⟩
  rw [quote, String.toList_ofList, List.cons_append, ← List.singleton_append,
    hquote.closesComment_behind, hquote.closesComment_before, closesComment_escaped]

end Literal

namespace Shape

/-- The texts that stand in the static type of a shape as they were given. -/
def typeTexts (r : Registry) : Shape → List String
  | .primitive name format =>
    ((if name == "string" then r.get? format else none).map (·.staticType)).toList
  | .array element => element.typeTexts r
  | .reference target => [target]
  | .enum _ _ members => members
  | .object target _ => target.toList

theorem closesComment_memberUnion (members : List String) :
    ClosesComment (memberUnion members).toList ↔ ∃ m ∈ members, ClosesComment m.toList := by
  have hbar : IsSpacer " | ".toList := ⟨by decide, by decide, by decide, by decide⟩
  rw [memberUnion]
  split
  · next hnone =>
    rw [List.isEmpty_iff.mp hnone]
    simp only [List.not_mem_nil, false_and, exists_false, iff_false]
    decide
  · rw [String.toList_intercalate, hbar.closesComment_intercalate]
    simp [Literal.closesComment_quote]

/-- The mark comes into a static type through one of the texts that stand in it. -/
theorem closesComment_staticType (r : Registry) : ∀ s : Shape,
    ClosesComment (s.staticType r).toList ↔ ∃ text ∈ s.typeTexts r, ClosesComment text.toList
  | .primitive name format => by
    rw [staticType, typeTexts]
    split
    · next b hb =>
      rw [hb]
      simp
    · next hnone =>
      have hplain : ¬ ClosesComment (primitiveType name).toList := by
        rw [primitiveType]
        split
        · decide
        · split
          · decide
          · split <;> decide
      rw [hnone]
      simpa using hplain
  | .array element => by
    have hopen : IsSpacer "Array<".toList := ⟨by decide, by decide, by decide, by decide⟩
    have hclose : IsSpacer ">".toList := ⟨by decide, by decide, by decide, by decide⟩
    have htext : (Shape.array element).staticType r = "Array<" ++ element.staticType r ++ ">" := rfl
    rw [htext, String.toList_append, String.toList_append, List.append_assoc,
      hopen.closesComment_behind, hclose.closesComment_before, closesComment_staticType r element]
    rfl
  | .reference target => by simp [staticType, typeTexts]
  | .enum _ _ members => closesComment_memberUnion members
  | .object (some target) _ => by
    rw [staticType, typeTexts]
    split
    · next hempty =>
      rw [beq_iff_eq.mp hempty]
      decide
    · simp
  | .object none _ => by
    rw [staticType, typeTexts]
    decide

end Shape

theorem Field.closesComment_staticType (r : Registry) (f : Field) :
    ClosesComment (f.staticType r).toList ↔
      ∃ text ∈ f.shape.typeTexts r, ClosesComment text.toList := by
  have hnull : IsSpacer " | null".toList := ⟨by decide, by decide, by decide, by decide⟩
  rw [← Shape.closesComment_staticType, staticType]
  split
  · rw [String.toList_append, hnull.closesComment_before]
  · rfl

namespace DocComment

variable {r : Registry} {d : Declaration} {v : Rendered} {lines : List String}

theorem closesComment_fieldLine (f : FieldView) : ClosesComment (fieldLine f).toList ↔
    ClosesComment f.staticType.toList ∨ ClosesComment f.name.toList := by
  have htag : IsSpacer "@property \x7b".toList := ⟨by decide, by decide, by decide, by decide⟩
  have hname : IsSpacer "\x7d ".toList := ⟨by decide, by decide, by decide, by decide⟩
  have hopen : IsSpacer "[".toList := ⟨by decide, by decide, by decide, by decide⟩
  have hclose : IsSpacer "]".toList := ⟨by decide, by decide, by decide, by decide⟩
  have hdash : IsSpacer " - ".toList := ⟨by decide, by decide, by decide, by decide⟩
  have hshown (name : String) : ClosesComment ("@property \x7b" ++ f.staticType ++ "\x7d " ++
      name).toList ↔ ClosesComment f.staticType.toList ∨ ClosesComment name.toList := by
    rw [String.toList_append, String.toList_append, String.toList_append, List.append_assoc,
      List.append_assoc, htag.closesComment_behind, hname.closesComment_iff]
  have hbracket : ClosesComment ("[" ++ f.name ++ "]").toList ↔ ClosesComment f.name.toList := by
    rw [String.toList_append, String.toList_append, List.append_assoc, hopen.closesComment_behind,
      hclose.closesComment_before]
  have htagged : ClosesComment ("@property \x7b" ++ f.staticType ++ "\x7d " ++
      (if f.required then f.name else "[" ++ f.name ++ "]")).toList ↔
        ClosesComment f.staticType.toList ∨ ClosesComment f.name.toList := by
    rw [hshown]
    split
    · rfl
    · rw [hbracket]
  have hsummary := not_closesComment_inComment (" ".intercalate (Text.words f.description))
  rw [fieldLine]
  generalize Literal.inComment (" ".intercalate (Text.words f.description)) = summary at hsummary ⊢
  by_cases hempty : (summary == "") = true
  · rw [if_pos hempty]
    exact htagged
  · rw [if_neg hempty]
    refine Iff.trans ?_ htagged
    change ClosesComment (_ ++ " - " ++ summary).toList ↔ _
    rw [String.toList_append, String.toList_append, List.append_assoc, hdash.closesComment_iff]
    exact or_iff_left hsummary

/-- The lines between the first and the last one of a block. -/
def inner (description : String) (fields : List FieldView) : List String :=
  (body description fields).map fun line => Text.trimEnd s!" * {line}"

theorem lines_of_body {description : String} {fields : List FieldView}
    (h : body description fields ≠ []) :
    DocComment.lines description fields = ("/**" :: inner description fields) ++ [" */"] := by
  rw [DocComment.lines]
  exact if_neg (mt List.isEmpty_iff.mp h)

/-- The mark comes into a block through a static type or the name of a field. -/
theorem not_closesComment_inner {description : String} {fields : List FieldView} :
    (∀ line ∈ inner description fields, ¬ ClosesComment line.toList) ↔
      ∀ f ∈ fields, ¬ ClosesComment f.staticType.toList ∧ ¬ ClosesComment f.name.toList := by
  have hstar : IsSpacer " * ".toList := ⟨by decide, by decide, by decide, by decide⟩
  have hmarked (line : String) : ClosesComment (Text.trimEnd s!" * {line}").toList ↔
      ClosesComment line.toList := by
    rw [closesComment_trimEnd]
    change ClosesComment (" * " ++ line).toList ↔ _
    rw [String.toList_append, hstar.closesComment_behind]
  have hgap : ∀ line ∈ (if fields.isEmpty || ((Text.lines description).map
      Literal.inComment).isEmpty then [] else [""]), ¬ ClosesComment line.toList := by
    intro line hline
    split at hline
    · cases hline
    · rw [List.mem_singleton.mp hline]
      decide
  rw [inner, List.forall_mem_map, body, List.forall_mem_append, List.forall_mem_append,
    List.forall_mem_map, List.forall_mem_map]
  simp only [hmarked, closesComment_fieldLine, not_or]
  exact and_iff_right ⟨fun text _ => not_closesComment_inComment text, hgap⟩

/-- The last line of a block holds the mark at its end, so all others have to be without it. -/
theorem endsLast_append (front : List String) :
    EndsLast (front ++ [" */"]) ↔ ∀ line ∈ front, ¬ ClosesComment line.toList := by
  constructor
  · rintro hlast line hline ⟨before, after, hmark⟩
    obtain ⟨above, below, rfl⟩ := List.append_of_mem hline
    have hback := (hlast above line (below ++ [" */"]) before after (by simp)
      (by rw [← hmark]; simp)).1
    simp at hback
  · intro hclear above line back before after hlines hmark
    rcases List.eq_nil_or_concat' back with rfl | ⟨back, last, rfl⟩
    · obtain ⟨rfl, _⟩ := List.cons.inj (List.append_inj' hlines rfl).2
      refine ⟨rfl, ?_⟩
      change [' ', '*', '/'] = _ at hmark
      rcases before with _ | ⟨c, _ | ⟨d, before⟩⟩
      · cases hmark
      · cases hmark
        rfl
      · have hlength := congrArg List.length hmark
        simp at hlength
        omega
    · rw [← List.cons_append, ← List.append_assoc] at hlines
      have hmem : line ∈ front := by
        rw [(List.append_inj' hlines rfl).1]
        exact List.mem_append_right _ List.mem_cons_self
      refine absurd ⟨before, after, ?_⟩ (hclear line hmem)
      rw [hmark, List.append_assoc]
      rfl

theorem endsLast_lines (description : String) (fields : List FieldView) :
    EndsLast (DocComment.lines description fields) ↔
      ∀ f ∈ fields, ¬ ClosesComment f.staticType.toList ∧ ¬ ClosesComment f.name.toList := by
  by_cases hbody : body description fields = []
  · have hnone : fields = [] := by
      rw [body, List.append_eq_nil_iff] at hbody
      exact List.map_eq_nil_iff.mp hbody.2
    have hlines : DocComment.lines description fields = [] := by
      rw [DocComment.lines]
      exact if_pos (List.isEmpty_iff.mpr hbody)
    rw [hlines, hnone]
    refine ⟨fun _ f hf => absurd hf List.not_mem_nil, fun _ front line back _ _ h _ => ?_⟩
    simp at h
  · rw [lines_of_body hbody, endsLast_append, List.forall_mem_cons, not_closesComment_inner]
    exact and_iff_right (by decide)

theorem closesComment_unlines (lines : List String) :
    ClosesComment (SourceText.unlines lines).toList ↔ ∃ line ∈ lines, ClosesComment line.toList := by
  have hend : IsSpacer "\n".toList := ⟨by decide, by decide, by decide, by decide⟩
  induction lines with
  | nil => simp [SourceText.unlines, ClosesComment]
  | cons line lines ih =>
    have hcons : SourceText.unlines (line :: lines) =
        line ++ ("\n" ++ SourceText.unlines lines) := by
      rw [SourceText.unlines, List.map_cons, String.join_cons, String.append_assoc]
      rfl
    rw [hcons, String.toList_append, String.toList_append, hend.closesComment_iff]
    refine (or_congr_right ih).trans ?_
    simp

/-- Where the mark only ends the last line of a block, the comment that the first line opens is over
with the block, whatever stands behind it. -/
theorem block_over {description : String} {fields : List FieldView}
    (hlast : EndsLast (DocComment.lines description fields))
    (hsome : DocComment.lines description fields ≠ []) (code : List Char) :
    ∃ inside, (SourceText.unlines (DocComment.lines description fields)).toList =
      '/' :: '*' :: inside ∧ afterEnd (inside ++ code) = some ('\n' :: code) := by
  have hbody : body description fields ≠ [] := by
    intro hnone
    rw [DocComment.lines] at hsome
    exact hsome (if_pos (List.isEmpty_iff.mpr hnone))
  rw [lines_of_body hbody] at hlast ⊢
  have hclear := (endsLast_append _).mp hlast
  have hinner : ¬ ClosesComment (SourceText.unlines (inner description fields)).toList := by
    rw [closesComment_unlines]
    rintro ⟨line, hline, hcloses⟩
    exact hclear line (List.mem_cons_of_mem _ hline) hcloses
  have hopen : IsSpacer ['*', '\n'] := ⟨by decide, by decide, by decide, by decide⟩
  have hspace : IsSpacer [' '] := ⟨by decide, by decide, by decide, by decide⟩
  refine ⟨(['*', '\n'] ++ (SourceText.unlines (inner description fields)).toList ++ [' ']) ++
    '*' :: '/' :: ['\n'], ?_, ?_⟩
  · have hfirst : SourceText.unlines ("/**" :: inner description fields) =
        "/**\n" ++ SourceText.unlines (inner description fields) :=
      SourceText.unlines_append ["/**"] _
    have hopening : "/**\n".toList = ['/', '*', '*', '\n'] := by decide
    have hclosing : (SourceText.unlines [" */"]).toList = [' ', '*', '/', '\n'] := by decide
    rw [SourceText.unlines_append, hfirst, String.toList_append, String.toList_append, hopening,
      hclosing]
    simp only [List.cons_append, List.nil_append, List.append_assoc]
  · rw [List.append_assoc]
    refine afterEnd_append ?_ ('\n' :: code)
    rw [hspace.closesComment_before, hopen.closesComment_behind]
    exact hinner

end DocComment

/-- The texts of a declaration that stand in its comment as they were given. -/
def Declaration.commentTexts (r : Registry) (d : Declaration) : List String :=
  d.fields.flatMap fun f => f.name :: f.shape.typeTexts r

namespace DocComment

/-- Names and static types are what a view takes over from a field for the comment. -/
theorem notes_of_ofDeclaration (h : Rendered.ofDeclaration r d = .ok v) :
    v.fields.map (fun view => (view.name, view.staticType)) =
      d.fields.map fun f => (f.name, f.staticType r) := by
  rw [← List.forall₂_eq_eq_eq, List.forall₂_map_left_iff, List.forall₂_map_right_iff]
  refine (Rendered.views_of_ofDeclaration h).1.flip.imp fun view f hview => ?_
  obtain ⟨_, _, hview⟩ := Text.bind_eq_ok_iff.mp hview
  cases hview
  rfl

theorem endsLast_doc (h : Rendered.ofDeclaration r d = .ok v) :
    EndsLast v.doc ↔ ∀ text ∈ d.commentTexts r, ¬ ClosesComment text.toList := by
  have hnotes : (∀ view ∈ v.fields, ¬ ClosesComment view.staticType.toList ∧
      ¬ ClosesComment view.name.toList) ↔ ∀ f ∈ d.fields,
        ¬ ClosesComment (f.staticType r).toList ∧ ¬ ClosesComment f.name.toList := by
    have hsame := notes_of_ofDeclaration h
    have hviews := List.forall_mem_map (l := v.fields)
      (f := fun view : FieldView => (view.name, view.staticType))
      (P := fun note => ¬ ClosesComment note.2.toList ∧ ¬ ClosesComment note.1.toList)
    rw [hsame, List.forall_mem_map] at hviews
    exact hviews.symm
  rw [(Rendered.views_of_ofDeclaration h).2, endsLast_lines, hnotes]
  simp only [Declaration.commentTexts, List.forall_mem_flatMap, List.forall_mem_cons,
    Field.closesComment_staticType, not_exists, not_and]
  exact forall₂_congr fun f _ => and_comm

/-- In the comment of a declaration the end mark of comments occurs only at the end of the last line,
and so the comment is over with its block, exactly if no name of a field and no text in a static type,
such as a member of an enum or what a reference or a binding names, holds the mark. -/
theorem comment_closed_iff (ht : r.target ∈ Target.all) (d : Declaration) :
    ∃ v, Rendered.ofDeclaration r d = .ok v ∧
      (EndsLast v.doc ↔ ∀ text ∈ d.commentTexts r, ¬ ClosesComment text.toList) ∧
      (EndsLast v.doc → v.doc ≠ [] → ∀ code, ∃ inside,
        (SourceText.unlines v.doc).toList = '/' :: '*' :: inside ∧
          afterEnd (inside ++ code) = some ('\n' :: code)) := by
  obtain ⟨v, hv, _⟩ := exists_rendered (Target.isPlain_of_mem_all ht) d
  refine ⟨v, hv, endsLast_doc hv, fun hlast hsome code => ?_⟩
  rw [(Rendered.views_of_ofDeclaration hv).2] at hlast hsome ⊢
  exact block_over hlast hsome code

/-- An object that is described with end marks of comments. -/
def markedObject : Declaration where
  name := "Ticket"
  kind := .object
  description := "Closes */ early\n**/ and late"
  fields := [
    ⟨"id", .primitive "string" "uuid", "", false, true⟩,
    ⟨"states", .array (.enum "States" "string" ["open*", "/closed"]), "one of */", true, false⟩]
  required := ["id"]
  members := []

theorem marked_comment_closed :
    (Registry.defaults .zod).freeze.target ∈ Target.all ∧
    ∃ v, Rendered.ofDeclaration (Registry.defaults .zod).freeze markedObject = .ok v ∧
      EndsLast v.doc ∧ v.doc ≠ [] ∧ ∃ inside,
        (SourceText.unlines v.doc).toList = '/' :: '*' :: inside ∧
          afterEnd (inside ++ "export".toList) = some ('\n' :: "export".toList) := by
  have ht : (Registry.defaults .zod).freeze.target ∈ Target.all := by
    exact List.mem_cons_of_mem _ List.mem_cons_self
  obtain ⟨v, hv, hiff, hover⟩ := comment_closed_iff ht markedObject
  have hlast : EndsLast v.doc := hiff.mpr (by decide +kernel)
  have hsome : v.doc ≠ [] := by
    rw [(Rendered.views_of_ofDeclaration hv).2, lines_of_body]
    · exact List.cons_ne_nil _ _
    · exact List.append_ne_nil_of_left_ne_nil (List.append_ne_nil_of_left_ne_nil (by decide) _) _
  exact ⟨ht, v, hv, hlast, hsome, hover hlast hsome _⟩

/-- A property whose name holds the mark ends the comment too early. -/
theorem marked_name_ends_comment :
    ∃ v, Rendered.ofDeclaration (Registry.defaults .ioTs).freeze (.object "A" "" [
      ⟨"a*/b", .primitive "string" "", "", false, false⟩] []) = .ok v ∧ ¬ EndsLast v.doc := by
  have ht : (Registry.defaults .ioTs).freeze.target ∈ Target.all := List.mem_cons_self
  obtain ⟨v, hv, _⟩ := exists_rendered (Target.isPlain_of_mem_all ht) (.object "A" "" [
    ⟨"a*/b", .primitive "string" "", "", false, false⟩] [])
  refine ⟨v, hv, ?_⟩
  rw [endsLast_doc hv]
  decide +kernel

end DocComment
end SchemaCompiler
