import Mathlib.Data.String.Basic
import SchemaCompiler.Literal

/-!
Keys of object literals, read back. A key stands for the name that it was made from, except for a line
feed behind an identifier, which is left outside of the key.
-/
namespace SchemaCompiler.Literal

variable {cs : List Char}

/-- The text of a string literal, from behind its opening quote to the closing one. -/
def unescape : List Char → List Char
  | '\\' :: c :: rest => (if c == 'n' then '\n' else c) :: unescape rest
  | '\x27' :: _ => []
  | c :: rest => c :: unescape rest
  | [] => []

/-- The name that a key of an object literal stands for. -/
def read (key : String) : String :=
  match key.toList with
  | '\x27' :: rest => .ofList (unescape rest)
  | cs => .ofList (cs.takeWhile continuesIdentifier)

/-- A name without the line feed behind an identifier. -/
def identified (name : String) : String :=
  if isIdentifier name.toList && name.toList.getLast? == some '\n' then
    .ofList name.toList.dropLast
  else name

theorem unescape_escape (cs rest : List Char) :
    unescape (cs.flatMap escape ++ '\x27' :: rest) = cs := by
  induction cs with
  | nil => rfl
  | cons c cs ih =>
    rw [List.flatMap_cons, List.append_assoc]
    by_cases hslash : c = '\\'
    · subst hslash
      simp [escape, unescape, ih]
    by_cases hquote : c = '\x27'
    · subst hquote
      simp [escape, unescape, ih]
    by_cases hline : c = '\n'
    · subst hline
      simp [escape, unescape, ih]
    simp [escape, hslash, hquote, hline, unescape, ih]

theorem read_quote (s : String) : read (quote s) = s := by
  rw [read, quote, String.toList_ofList, List.cons_append]
  change String.ofList (unescape (s.toList.flatMap escape ++ ['\x27'])) = s
  rw [unescape_escape, String.ofList_toList]

/-- An identifier and nothing else. -/
def IsBare (cs : List Char) : Prop :=
  ∃ c rest, cs = c :: rest ∧ startsIdentifier c = true ∧ ∀ d ∈ rest, continuesIdentifier d = true

theorem IsBare.continues (h : IsBare cs) : ∀ d ∈ cs, continuesIdentifier d = true := by
  obtain ⟨c, rest, rfl, hc, hrest⟩ := h
  intro d hd
  rcases List.mem_cons.mp hd with rfl | hd
  · simp [continuesIdentifier, hc]
  · exact hrest d hd

theorem IsBare.not_mem (h : IsBare cs) {d : Char} (hd : continuesIdentifier d = false) : d ∉ cs := by
  intro hmem
  have := h.continues d hmem
  simp [hd] at this

theorem IsBare.getLast?_ne (h : IsBare cs) : cs.getLast? ≠ some '\n' := by
  intro hlast
  exact h.not_mem (by decide) (List.mem_of_getLast? hlast)

/-- The test for identifiers looks at the end of a line and so lets a line feed through. -/
theorem isIdentifier_iff :
    isIdentifier cs = true ↔ IsBare cs ∨ ∃ front, IsBare front ∧ cs = front ++ ['\n'] := by
  have htest : isIdentifier cs = true ↔
      IsBare (if cs.getLast? == some '\n' then cs.dropLast else cs) := by
    rw [isIdentifier]
    cases (if cs.getLast? == some '\n' then cs.dropLast else cs) with
    | nil => simp [IsBare]
    | cons c rest => simp [IsBare]
  rw [htest]
  by_cases hline : cs.getLast? = some '\n'
  · obtain ⟨front, rfl⟩ := List.getLast?_eq_some_iff.mp hline
    rw [hline, if_pos (beq_self_eq_true _), List.dropLast_concat]
    constructor
    · intro h
      exact .inr ⟨front, h, rfl⟩
    · rintro (h | ⟨front', h, heq⟩)
      · exact absurd hline h.getLast?_ne
      · rwa [List.append_cancel_right heq]
  · rw [if_neg (mt beq_iff_eq.mp hline)]
    constructor
    · exact .inl
    · rintro (h | ⟨front, _, rfl⟩)
      · exact h
      · exact absurd List.getLast?_concat hline

/-- An identifier is read up to the first character that cannot be part of it. -/
theorem IsBare.split (h : IsBare cs) {more : List Char}
    (hmore : ∀ d ∈ more.head?, continuesIdentifier d = false) :
    (cs ++ more).takeWhile continuesIdentifier = cs ∧
      (cs ++ more).dropWhile continuesIdentifier = more := by
  rw [List.takeWhile_append_of_pos h.continues, List.dropWhile_append_of_pos h.continues]
  cases more with
  | nil => simp
  | cons d more => simp [hmore d rfl]

theorem read_of_isIdentifier {name : String} (h : isIdentifier name.toList = true) :
    read name = identified name := by
  have hread {cs more : List Char} (hbare : IsBare cs) (hname : name.toList = cs ++ more)
      (hmore : ∀ d ∈ more.head?, continuesIdentifier d = false) : read name = .ofList cs := by
    have htake := (hbare.split hmore).1
    obtain ⟨c, rest, rfl, hc, _⟩ := hbare
    rw [read, hname]
    split
    · next heq =>
      rw [(List.cons.inj heq).1] at hc
      exact absurd hc (by decide)
    · rw [htake]
  rw [identified, h, Bool.true_and]
  rcases isIdentifier_iff.mp h with hbare | ⟨front, hbare, hname⟩
  · rw [if_neg (mt beq_iff_eq.mp hbare.getLast?_ne), hread hbare (List.append_nil _).symm (by simp),
      String.ofList_toList]
  · rw [hread hbare hname (by rintro _ ⟨⟩; decide), hname, List.getLast?_concat,
      if_pos (beq_self_eq_true _), List.dropLast_concat]

/-- A key is read as the name that it was made from, less the line feed behind an identifier. -/
theorem read_key (name : String) : read (key name) = identified name := by
  rw [key]
  split
  · next h => exact read_of_isIdentifier h
  · next h =>
    rw [read_quote, identified, (Bool.not_eq_true _).mp h, Bool.false_and,
      if_neg Bool.false_ne_true]

example : read (key "a\n") = read (key "a") := by
  rw [read_key, read_key]
  decide

end SchemaCompiler.Literal
