import SchemaCompiler.Text.Case

/-! Names derived from schema names: module names, enum names and the names references point at. -/
namespace SchemaCompiler.Naming

def isCapital (c : Char) : Bool := 'A' ≤ c && c ≤ 'Z'

/-- A hyphen before every ASCII capital. -/
def hyphenated (cs : List Char) : List Char :=
  cs.flatMap fun c => if isCapital c then ['-', c] else [c]

/-- Lower case with a hyphen before every ASCII capital but a first one. -/
def kebab (name : String) : String :=
  match name.toList with
  | [] => ""
  | c :: rest => Text.lower (String.ofList (c :: hyphenated rest))

/-- The name with its first character in upper case. -/
def capitalized (name : String) : String :=
  match name.toList with
  | [] => name
  | c :: rest => String.ofList (Text.upperChar c ++ rest)

/-- The name of the enum that belongs to a field. -/
def enumName (field : String) : String := capitalized field ++ "Enum"

/-- What follows the last slash. -/
def lastSegment (pointer : String) : String :=
  String.ofList (pointer.toList.reverse.takeWhile (· != '/')).reverse

theorem slash_notMem_lastSegment (pointer : String) : '/' ∉ (lastSegment pointer).toList := by
  rw [lastSegment, String.toList_ofList, List.mem_reverse]
  intro hmem
  have hother := List.all_eq_true.mp List.all_takeWhile '/' hmem
  exact absurd hother (by decide)

/-- The last segment is all of a pointer or stands behind a slash, and holds no further slash. -/
theorem lastSegment_eq_iff {pointer segment : String} : lastSegment pointer = segment ↔
    '/' ∉ segment.toList ∧
      (pointer = segment ∨ ∃ front, pointer = front ++ "/" ++ segment) := by
  constructor
  · rintro rfl
    refine ⟨slash_notMem_lastSegment pointer, ?_⟩
    have hparts := @List.takeWhile_append_dropWhile _ (· != '/') pointer.toList.reverse
    have hhead := @List.head?_dropWhile_not _ (· != '/') pointer.toList.reverse
    cases hdrop : pointer.toList.reverse.dropWhile (· != '/') with
    | nil =>
      left
      rw [hdrop, List.append_nil] at hparts
      rw [lastSegment, hparts, List.reverse_reverse, String.ofList_toList]
    | cons c front =>
      right
      rw [hdrop] at hparts hhead
      obtain rfl : c = '/' := by simpa using hhead
      refine ⟨String.ofList front.reverse, String.toList_injective ?_⟩
      have hreversed := congrArg List.reverse hparts
      rw [List.reverse_reverse, List.reverse_append, List.reverse_cons] at hreversed
      simpa [lastSegment] using hreversed.symm
  · rintro ⟨hslash, hpointer⟩
    have hall : ∀ c ∈ segment.toList.reverse, (c != '/') = true := by
      intro c hc
      exact bne_iff_ne.mpr fun heq => hslash (heq ▸ List.mem_reverse.mp hc)
    have hsegment : pointer.toList.reverse.takeWhile (· != '/') = segment.toList.reverse := by
      rcases hpointer with rfl | ⟨front, rfl⟩
      · have hwhole := @List.takeWhile_append_of_pos _ _ _ [] hall
        simpa using hwhole
      · simp [List.takeWhile_append_of_pos hall]
    rw [lastSegment, hsegment, List.reverse_reverse, String.ofList_toList]

end SchemaCompiler.Naming
