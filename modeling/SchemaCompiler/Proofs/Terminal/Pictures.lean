import Mathlib.Data.List.Basic
import SchemaCompiler.Terminal.Emoji

/-!
Names of pictures in a text. A picture takes the place of two colons and of what is between them, so a
text that keeps its colons is left as it is.
-/
namespace SchemaCompiler.Emoji

variable {e : Emoji} {name : Option (List Char)} {a b cs stem mark : List Char}

/-- A colon and what has been read since. -/
def begun : Option (List Char) → List Char
  | .none => []
  | some name => ':' :: name.reverse

theorem not_mem_mark {name : List Char} (h : variant name = (stem, mark)) : ':' ∉ mark := by
  rw [variant] at h
  split at h
  · cases h
    decide
  · split at h
    · cases h
      decide
    · cases h
      exact List.not_mem_nil

/-- A name is shown as it is, or gives way to a picture. -/
theorem shown_cases (e : Emoji) (name : List Char) :
    e.shown name = ':' :: name ++ [':'] ∨ ':' ∉ e.shown name := by
  rw [shown]
  rcases hvariant : variant name with ⟨stem, mark⟩
  dsimp only
  cases hpicture : e.picture? (Text.lower (String.ofList stem)) with
  | none => exact .inl rfl
  | some picture =>
    refine .inr fun hmem => ?_
    rcases List.mem_append.mp hmem with hmem | hmem
    · exact e.bare _ _ hpicture hmem
    · exact not_mem_mark hvariant hmem

theorem drawFrom_free (h : ':' ∉ cs) (name : Option (List Char)) :
    e.drawFrom name cs = begun name ++ cs := by
  induction cs generalizing name with
  | nil => cases name <;> simp [drawFrom, begun]
  | cons c cs ih =>
    obtain ⟨hc, hcs⟩ := not_or.mp (mt List.mem_cons.mpr h)
    have hcolon : (c == ':') = false := beq_false_of_ne (Ne.symm hc)
    cases name with
    | none => simp [drawFrom, hcolon, ih hcs, begun]
    | some name =>
      by_cases hblank : Text.isBlank c = true
      · simp [drawFrom, hcolon, hblank, ih hcs, begun]
      · simp [drawFrom, hcolon, hblank, ih hcs, begun]

theorem draw_free (h : ':' ∉ cs) : e.draw cs = cs := drawFrom_free h .none

/-- A text without a colon begins no name. -/
theorem append_draw (h : ':' ∉ a) (b : List Char) : e.draw (a ++ b) = a ++ e.draw b := by
  induction a with
  | nil => rfl
  | cons c a ih =>
    obtain ⟨hc, ha⟩ := not_or.mp (mt List.mem_cons.mpr h)
    have hcolon : (c == ':') = false := beq_false_of_ne (Ne.symm hc)
    rw [List.cons_append, draw, drawFrom, hcolon, if_neg Bool.false_ne_true, List.cons_append]
    exact congrArg _ (ih ha)

/-- What is shown of a text: the text itself, or fewer colons than it has. -/
def IsDrawing (cs drawn : List Char) : Prop := drawn = cs ∨ drawn.count ':' < cs.count ':'

namespace IsDrawing

variable {drawn picture name : List Char}

theorem count_le (h : IsDrawing cs drawn) : drawn.count ':' ≤ cs.count ':' := by
  rcases h with rfl | hfewer
  · exact Nat.le_refl _
  · exact Nat.le_of_lt hfewer

theorem append_left (h : IsDrawing cs drawn) (a : List Char) : IsDrawing (a ++ cs) (a ++ drawn) := by
  rcases h with rfl | hfewer
  · exact .inl rfl
  · rw [IsDrawing, List.count_append, List.count_append]
    exact .inr (Nat.add_lt_add_left hfewer _)

/-- A picture takes the place of two colons. -/
theorem named (h : IsDrawing cs drawn) (hpicture : ':' ∉ picture) (name : List Char) :
    IsDrawing (':' :: name ++ ':' :: cs) (picture ++ drawn) := by
  have hfew := h.count_le
  refine .inr ?_
  rw [List.count_append, List.count_append, List.count_cons_self, List.count_cons_self,
    List.count_eq_zero.mpr hpicture]
  omega

end IsDrawing

theorem isDrawing_drawFrom (e : Emoji) (name : Option (List Char)) (cs : List Char) :
    IsDrawing (begun name ++ cs) (e.drawFrom name cs) := by
  induction cs generalizing name with
  | nil => cases name <;> exact .inl (by simp [drawFrom, begun])
  | cons c cs ih =>
    by_cases hcolon : c = ':'
    · subst hcolon
      cases name with
      | none => exact ih (some [])
      | some name =>
        have hstep : e.drawFrom (some name) (':' :: cs) =
            e.shown name.reverse ++ e.drawFrom .none cs := rfl
        rw [hstep]
        rcases e.shown_cases name.reverse with hshown | hshown
        · rw [hshown, List.append_assoc]
          exact (ih .none).append_left [':'] |>.append_left (':' :: name.reverse)
        · exact (ih .none).named hshown name.reverse
    · have hcolon : (c == ':') = false := beq_false_of_ne hcolon
      cases name with
      | none =>
        rw [drawFrom, hcolon]
        exact (ih .none).append_left [c]
      | some name =>
        rw [drawFrom, hcolon]
        by_cases hblank : Text.isBlank c = true
        · rw [hblank]
          exact (ih .none).append_left [c] |>.append_left (':' :: name.reverse)
        · rw [if_neg Bool.false_ne_true, if_neg hblank]
          have hbegun : begun (some name) ++ c :: cs = begun (some (c :: name)) ++ cs := by
            simp [begun]
          rw [hbegun]
          exact ih _

theorem count_draw_le (e : Emoji) (cs : List Char) : (e.draw cs).count ':' ≤ cs.count ':' :=
  (e.isDrawing_drawFrom .none cs).count_le

/-- A text that keeps its colons is left as it is. -/
theorem draw_of_count (h : cs.count ':' ≤ (e.draw cs).count ':') : e.draw cs = cs := by
  rcases e.isDrawing_drawFrom .none cs with heq | hfewer
  · exact heq
  · exact absurd h (Nat.not_le_of_lt hfewer)

/-- Without pictures all texts are left as they are. -/
theorem draw_none (cs : List Char) : none.draw cs = cs := by
  have hfrom (name : Option (List Char)) : none.drawFrom name cs = begun name ++ cs := by
    have hshown (name : List Char) : none.shown name = ':' :: name ++ [':'] := rfl
    induction cs generalizing name with
    | nil => cases name <;> simp [drawFrom, begun]
    | cons c cs ih =>
      cases name with
      | none => by_cases hcolon : c = ':' <;> simp [drawFrom, hcolon, ih, begun]
      | some name =>
        by_cases hcolon : c = ':'
        · simp [drawFrom, hcolon, hshown, ih, begun]
        · by_cases hblank : Text.isBlank c = true <;> simp [drawFrom, hcolon, hblank, ih, begun]
  exact hfrom .none

end SchemaCompiler.Emoji
