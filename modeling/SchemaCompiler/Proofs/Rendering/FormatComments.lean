import SchemaCompiler.Proofs.Rendering.Comments
import SchemaCompiler.Proofs.Rendering.Leaves

/-!
Comments about formats. A text whose format has no binding shows the format in a comment inside of its
validator. The comment is over where the pattern of the target ends it, and what stands outside of it
does not depend on the format.
-/
namespace SchemaCompiler

open Text (PatternError fill)

variable {t : Target} {r : Registry} {format : String} {cs before : List Char}

theorem surrounds_ok : Surrounds .ok := by
  refine ⟨[], [], List.not_mem_nil, List.not_mem_nil, ?_⟩
  intro e
  simp

theorem Surrounds.bind {inner outer : String → Except PatternError String}
    (hinner : Surrounds inner) (houter : Surrounds outer) :
    Surrounds fun e => inner e >>= outer := by
  obtain ⟨before, after, hbefore, hafter, hinner⟩ := hinner
  obtain ⟨front, back, hfront, hback, houter⟩ := houter
  refine ⟨front ++ before, after ++ back, by simp [hfront, hbefore], by simp [hafter, hback], ?_⟩
  intro e
  refine Text.bind_eq_ok_iff.mpr ⟨_, hinner e, (houter _).trans ?_⟩
  simp only [String.ofList_append, String.append_assoc]

namespace Target

theorem surrounds_nullable (ht : t ∈ all) :
    Surrounds fun e => fill t.nullablePattern [("expr", e)] := by
  have hplain := (isPlain_of_mem_all ht).nullable
  rcases List.mem_cons.mp ht with rfl | ht
  · exact surrounds_of_pieces "t.union([".toList ", t.null])".toList ⟨"expr", none, "", false⟩
      hplain rfl (by decide) (by decide)
  · cases List.mem_singleton.mp ht
    exact surrounds_of_pieces [] ".nullable()".toList ⟨"expr", none, "", false⟩ hplain rfl
      (by decide) (by decide)

theorem surrounds_optional (ht : t ∈ all) :
    Surrounds fun e => fill t.optionalPattern [("expr", e)] := by
  have hplain := (isPlain_of_mem_all ht).optional
  rcases List.mem_cons.mp ht with rfl | ht
  · exact surrounds_of_pieces "t.union([".toList ", t.undefined])".toList ⟨"expr", none, "", false⟩
      hplain rfl (by decide) (by decide)
  · cases List.mem_singleton.mp ht
    exact surrounds_of_pieces [] ".optional()".toList ⟨"expr", none, "", false⟩ hplain rfl
      (by decide) (by decide)

theorem surrounds_modified (ht : t ∈ all) (nullable required : Bool) :
    Surrounds (t.modified nullable required) := by
  have hnull : Surrounds fun e =>
      if nullable then fill t.nullablePattern [("expr", e)] else .ok e := by
    cases nullable with
    | true => exact surrounds_nullable ht
    | false => exact surrounds_ok
  have habsent : Surrounds fun e =>
      if required then .ok e else fill t.optionalPattern [("expr", e)] := by
    cases required with
    | true => exact surrounds_ok
    | false => exact surrounds_optional ht
  exact hnull.bind habsent

/-- Puts an expression into a number of arrays. -/
def inArrays (t : Target) : Nat → String → Except PatternError String
  | 0, e => .ok e
  | depth + 1, e => t.inArrays depth e >>= fun e => fill t.arrayPattern [("element", e)]

theorem surrounds_inArrays (ht : t ∈ all) (depth : Nat) : Surrounds (t.inArrays depth) := by
  induction depth with
  | zero => exact surrounds_ok
  | succ depth ih => exact ih.bind (surrounds_array ht)

/-- The comment about a format stands behind the validator of plain texts. -/
theorem fill_unknownFormat (ht : t ∈ all) (plain format : String) :
    fill t.unknownFormatPattern [("expr", plain), ("format", format)] =
      .ok (plain ++ " /* format: " ++ format ++ " */") := by
  have hplain := (isPlain_of_mem_all ht).unknownFormat
  have hpieces : (Text.Pattern.parse t.unknownFormatPattern).pieces =
      .place ⟨"expr", none, "", false⟩ :: (" /* format: ".toList.map .literal ++
        .place ⟨"format", none, "", false⟩ :: " */".toList.map .literal) := by
    rcases List.mem_cons.mp ht with rfl | ht
    · rfl
    · cases List.mem_singleton.mp ht
      rfl
  rw [Text.fill_eq hplain (by simp [List.lookup_cons]), hpieces, List.map_cons, List.map_append,
    List.map_cons, String.join_cons, String.join_append, String.join_cons, Text.join_literals,
    Text.join_literals]
  simp [Text.Piece.filled, List.lookup_cons, String.append_assoc]

end Target

/-- A shape inside of a number of arrays. -/
def Shape.inArrays (s : Shape) : Nat → Shape
  | 0 => s
  | depth + 1 => .array (s.inArrays depth)

theorem Shape.validator_inArrays (r : Registry) (s : Shape) (depth : Nat) :
    (s.inArrays depth).validator r = s.validator r >>= r.target.inArrays depth := by
  induction depth with
  | zero =>
    rw [Shape.inArrays]
    cases s.validator r <;> rfl
  | succ depth ih =>
    rw [Shape.inArrays, Shape.validator, ih]
    cases s.validator r <;> rfl

namespace DocComment

/-- What stands before the first comment of a source and what stands behind it. -/
def outside : List Char → Option (List Char × List Char)
  | '/' :: '*' :: rest => (afterEnd rest).map ([], ·)
  | c :: rest => (outside rest).map fun (before, after) => (c :: before, after)
  | [] => none

theorem outside_append (h : '/' ∉ before) (rest : List Char) : outside (before ++ '/' :: '*' :: rest) =
    (afterEnd rest).map (before, ·) := by
  induction before with
  | nil => rfl
  | cons c before ih =>
    obtain ⟨hc, hbefore⟩ := not_or.mp (mt List.mem_cons.mpr h)
    have hstep : outside (c :: (before ++ '/' :: '*' :: rest)) =
        (outside (before ++ '/' :: '*' :: rest)).map fun (front, after) => (c :: front, after) := by
      rw [outside]
      rintro _ rfl
      exact absurd rfl hc
    rw [List.cons_append, hstep, ih hbefore, Option.map_map]
    rfl

theorem broken_of_not_closes (h : ¬ ClosesComment cs) : Literal.breakCommentEnds cs = cs := by
  fun_induction Literal.breakCommentEnds cs with
  | case1 rest => exact absurd (closesComment_cons.mpr (.inl ⟨rfl, rfl⟩)) h
  | case2 c rest _ ih => rw [ih fun hrest => h (closesComment_cons.mpr (.inr hrest))]
  | case3 => rfl

/-- A text is left as it is exactly if it does not hold the end mark. -/
theorem inComment_eq_iff {s : String} : Literal.inComment s = s ↔ ¬ ClosesComment s.toList := by
  constructor
  · intro h
    rw [← h]
    exact not_closesComment_inComment s
  · intro h
    rw [Literal.inComment, broken_of_not_closes h, String.ofList_toList]

/-- The comment about a format is over with the end mark of its pattern. -/
theorem outside_formatComment (h : '/' ∉ before) (format : String) (after : List Char) :
    outside (before ++ ("/* format: " ++ Literal.inComment format ++ " */").toList ++ after) =
      some (before, after) := by
  have hstart : IsSpacer " format: ".toList := ⟨by decide, by decide, by decide, by decide⟩
  have hend : IsSpacer [' '] := ⟨by decide, by decide, by decide, by decide⟩
  have hinside : ¬ ClosesComment
      (" format: ".toList ++ ((Literal.inComment format).toList ++ [' '])) := by
    rw [hstart.closesComment_behind, hend.closesComment_before]
    exact not_closesComment_inComment format
  have htext : before ++ ("/* format: " ++ Literal.inComment format ++ " */").toList ++ after =
      before ++ '/' :: '*' :: ((" format: ".toList ++
        ((Literal.inComment format).toList ++ [' '])) ++ '*' :: '/' :: after) := by
    simp
  rw [htext, outside_append h, afterEnd_append hinside]
  rfl

end DocComment

open DocComment

theorem Registry.primitive_commented (ht : r.target ∈ Target.all) (hne : format ≠ "")
    (hunbound : r.get? format = none) : r.primitive "string" format =
      .ok (r.target.primitives.string ++ " /* format: " ++ Literal.inComment format ++ " */") := by
  rw [Registry.primitive_formatted hne, hunbound]
  exact Target.fill_unknownFormat ht _ _

/-- The expression for a text with a format that has no binding holds one comment, which is over where the
pattern of the target ends it. What stands outside of the comment is the same for all such formats. The
text of the comment never holds the end mark, and it is the format itself if that does not hold it. -/
theorem format_comment_closed (ht : t ∈ Target.all) (depth : Nat)
    (nullable required : Bool) :
    (∃ before after : List Char, '/' ∉ before ∧ '/' ∉ after ∧
      ∀ (r : Registry) (name description format : String), r.target = t → format ≠ "" →
        r.get? format = none → ∃ e,
          Field.validator r ⟨name, (Shape.primitive "string" format).inArrays depth, description,
            nullable, required⟩ = .ok e ∧
          e.toList =
            before ++ ("/* format: " ++ Literal.inComment format ++ " */").toList ++ after ∧
          outside e.toList = some (before, after)) ∧
    ∀ s, ¬ ClosesComment (Literal.inComment s).toList ∧
      (Literal.inComment s = s ↔ ¬ ClosesComment s.toList) := by
  refine ⟨?_, fun s => ⟨not_closesComment_inComment s, inComment_eq_iff⟩⟩
  obtain ⟨front, back, hfront, hback, hwrap⟩ :=
    (Target.surrounds_inArrays ht depth).bind (Target.surrounds_modified ht nullable required)
  have hplain : '/' ∉ t.primitives.string.toList := by
    rcases List.mem_cons.mp ht with rfl | ht
    · decide
    · cases List.mem_singleton.mp ht
      decide
  have hbefore : '/' ∉ front ++ t.primitives.string.toList ++ [' '] := by
    simp [hfront, hplain]
  refine ⟨front ++ t.primitives.string.toList ++ [' '], back, hbefore, hback, ?_⟩
  rintro r name description format rfl hne hunbound
  have hvalidator : Field.validator r ⟨name, (Shape.primitive "string" format).inArrays depth,
      description, nullable, required⟩ = .ok (String.ofList front ++ (r.target.primitives.string ++
        " /* format: " ++ Literal.inComment format ++ " */") ++ String.ofList back) := by
    rw [Field.validator_eq, Shape.validator_inArrays, Shape.validator,
      Registry.primitive_commented ht hne hunbound]
    exact hwrap _
  have htext : (String.ofList front ++ (r.target.primitives.string ++ " /* format: " ++
      Literal.inComment format ++ " */") ++ String.ofList back).toList =
        front ++ r.target.primitives.string.toList ++ [' '] ++
          ("/* format: " ++ Literal.inComment format ++ " */").toList ++ back := by
    simp
  refine ⟨_, hvalidator, htext, ?_⟩
  rw [htext]
  exact outside_formatComment hbefore format back

theorem starred_format_closed : Target.ioTs ∈ Target.all ∧ "**//*/" ≠ "" ∧
    (Registry.defaults .ioTs).get? "**//*/" = none ∧ ∃ before after : List Char, ∃ e,
      Field.validator (.defaults .ioTs) ⟨"id", (Shape.primitive "string" "**//*/").inArrays 2, "",
        true, false⟩ = .ok e ∧
      e.toList = before ++ "/* format: **\\//*\\/ */".toList ++ after ∧
      outside e.toList = some (before, after) := by
  obtain ⟨⟨before, after, _, _, hall⟩, _⟩ :=
    format_comment_closed (t := .ioTs) List.mem_cons_self 2 true false
  have hunbound : (Registry.defaults .ioTs).get? "**//*/" = none := by decide
  obtain ⟨e, he, htext, houtside⟩ :=
    hall (.defaults .ioTs) "id" "" "**//*/" rfl (by decide) hunbound
  exact ⟨List.mem_cons_self, by decide, hunbound, before, after, e, he, htext, houtside⟩

end SchemaCompiler
