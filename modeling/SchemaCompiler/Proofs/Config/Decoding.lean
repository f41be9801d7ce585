import Mathlib.Data.List.Basic
import SchemaCompiler.Config.Decoded

/-!
Decodings side by side. A decoding has a value or has found problems. Two decodings vary when the one
has some problems in the place where the other has some others, and then so do decodings that they are
parts of.
-/
namespace SchemaCompiler.Config

namespace Decoded

variable {α β : Type} {own own' : List Problem} {d d' : Decoded α} {f f' : Decoded (α → β)}

/-- The problems of a decoding. -/
def found : Decoded α → List Problem
  | .value _ => []
  | .problems p ps => p :: ps

/-- The value of a decoding without problems. -/
def value? : Decoded α → Option α
  | .value a => some a
  | .problems _ _ => none

@[simp] theorem found_seq (f : Decoded (α → β)) (d : Decoded α) : (f <*> d).found = f.found ++ d.found := by
  cases f with
  | value g => cases d <;> rfl
  | problems p ps => cases d <;> simp [Seq.seq, seq, found]

@[simp] theorem value?_seq (f : Decoded (α → β)) (d : Decoded α) :
    (f <*> d).value? = f.value?.bind fun g => d.value?.map g := by
  cases f <;> cases d <;> rfl

@[simp] theorem found_map (g : α → β) (d : Decoded α) : (g <$> d).found = d.found := by
  cases d <;> rfl

@[simp] theorem value?_map (g : α → β) (d : Decoded α) : (g <$> d).value? = d.value?.map g := by
  cases d <;> rfl

@[simp] theorem found_within (step : Step) (d : Decoded α) :
    (d.within step).found = d.found.map (·.within step) := by
  cases d <;> rfl

@[simp] theorem value?_within (step : Step) (d : Decoded α) : (d.within step).value? = d.value? := by
  cases d <;> rfl

@[simp] theorem found_spoil (d : Decoded α) (further : List Problem) :
    (d.spoil further).found = d.found ++ further := by
  cases d <;> cases further <;> rfl

@[simp] theorem value?_spoil (d : Decoded α) (further : List Problem) :
    (d.spoil further).value? = if further = [] then d.value? else none := by
  cases d <;> cases further <;> rfl

/-- The plain map, which is not that of the applicative. -/
theorem map_eq (g : α → β) (d : Decoded α) : d.map g = g <$> d := by
  cases d <;> rfl

theorem toExcept_eq_ok {a : α} : d.toExcept = .ok a ↔ d.value? = some a := by
  cases d <;> simp [toExcept, value?]

theorem toExcept_eq_error {problems : List Problem} :
    d.toExcept = .error problems ↔ d.found = problems ∧ problems ≠ [] := by
  cases d with
  | value a => simp +contextual [toExcept, found]
  | problems p ps =>
    rw [toExcept, found, Except.error.injEq]
    refine ⟨?_, And.left⟩
    rintro rfl
    exact ⟨rfl, List.cons_ne_nil _ _⟩

theorem value?_of_found (hfound : d.found = []) : ∃ a, d.value? = some a := by
  cases d with
  | value a => exact ⟨a, rfl⟩
  | problems p ps => cases hfound

/-- Two decodings that differ in some problems in one place: `own` in the first and `own'` in the
second. Where these are none they have the same value. -/
structure Varies (own own' : List Problem) (d d' : Decoded α) : Prop where
  found : ∃ before after, d.found = before ++ own ++ after ∧ d'.found = before ++ own' ++ after
  value : own = [] → own' = [] → d.value? = d'.value?

/-- One decoding, seen from two containers. -/
theorem varies_step (d : Decoded α) (step step' : Step) :
    Varies (d.found.map (·.within step)) (d.found.map (·.within step')) (d.within step)
      (d.within step') :=
  ⟨⟨[], [], by simp, by simp⟩, fun _ _ => by rw [value?_within, value?_within]⟩

namespace Varies

theorem map (g : α → β) (h : Varies own own' d d') : Varies own own' (g <$> d) (g <$> d') := by
  refine ⟨by simpa using h.found, fun hown hown' => ?_⟩
  rw [value?_map, value?_map, h.value hown hown']

theorem seq_left (h : Varies own own' f f') (d : Decoded α) :
    Varies own own' (f <*> d) (f' <*> d) := by
  obtain ⟨before, after, hfound, hfound'⟩ := h.found
  refine ⟨⟨before, after ++ d.found, ?_, ?_⟩, fun hown hown' => ?_⟩
  · rw [found_seq, hfound, List.append_assoc]
  · rw [found_seq, hfound', List.append_assoc]
  · rw [value?_seq, value?_seq, h.value hown hown']

theorem seq_right (f : Decoded (α → β)) (h : Varies own own' d d') :
    Varies own own' (f <*> d) (f <*> d') := by
  obtain ⟨before, after, hfound, hfound'⟩ := h.found
  refine ⟨⟨f.found ++ before, after, ?_, ?_⟩, fun hown hown' => ?_⟩
  · simp only [found_seq, hfound, List.append_assoc]
  · simp only [found_seq, hfound', List.append_assoc]
  · rw [value?_seq, value?_seq, h.value hown hown']

theorem within (step : Step) (h : Varies own own' d d') :
    Varies (own.map (·.within step)) (own'.map (·.within step)) (d.within step) (d'.within step) := by
  obtain ⟨before, after, hfound, hfound'⟩ := h.found
  refine ⟨⟨before.map (·.within step), after.map (·.within step), ?_, ?_⟩, fun hown hown' => ?_⟩
  · simp only [found_within, hfound, List.map_append]
  · simp only [found_within, hfound', List.map_append]
  · rw [value?_within, value?_within]
    exact h.value (List.map_eq_nil_iff.mp hown) (List.map_eq_nil_iff.mp hown')

theorem spoil (further : List Problem) (h : Varies own own' d d') :
    Varies own own' (d.spoil further) (d'.spoil further) := by
  obtain ⟨before, after, hfound, hfound'⟩ := h.found
  refine ⟨⟨before, after ++ further, ?_, ?_⟩, fun hown hown' => ?_⟩
  · rw [found_spoil, hfound, List.append_assoc]
  · rw [found_spoil, hfound', List.append_assoc]
  · rw [value?_spoil, value?_spoil, h.value hown hown']

end Varies

end Decoded

end SchemaCompiler.Config
