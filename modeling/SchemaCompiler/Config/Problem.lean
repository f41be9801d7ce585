import SchemaCompiler.Value.Shown

/-! Problems found in a configuration document: a cause and the location of the offending value. -/
namespace SchemaCompiler.Config

/-- A step from a container to a part of it. -/
inductive Step where
  | name (s : String)
  | index (n : Int)
deriving DecidableEq

/-- The step to the value under a key. Numbers and truth values count as indices as long as they
fit into a machine word. -/
def Step.ofKey : Scalar → Step
  | .bool b => .index (if b then 1 else 0)
  | .str s => .name s
  | .int n =>
    if -0x8000000000000000 ≤ n && n < 0x8000000000000000 then .index n else named (.int n)
  | key => named key
where
  named (key : Scalar) : Step := .name (key.shown?.getD s!"<unprintable {key.kindName} object>")

/-- Steps as text: indices in brackets, names with dots between. -/
def locationText (steps : List Step) : String :=
  match steps with
  | [] => ""
  | first :: rest => head first ++ String.join (rest.map tail)
where
  head : Step → String
    | .name s => s
    | .index n => s!"[{n}]"
  tail : Step → String
    | .name s => "." ++ s
    | .index n => s!"[{n}]"

/-- A name is set apart from what stands before it by a dot. -/
theorem locationText_name {steps : List Step} (hsteps : steps ≠ []) (name : String) :
    locationText (steps ++ [.name name]) = locationText steps ++ "." ++ name := by
  obtain ⟨first, rest, rfl⟩ := List.exists_cons_of_ne_nil hsteps
  rw [List.cons_append, locationText, locationText, List.map_append, String.join_append]
  simp [locationText.tail, String.append_assoc]

/-- An index follows in brackets, whatever stands before it. -/
theorem locationText_index (steps : List Step) (n : Int) :
    locationText (steps ++ [.index n]) = locationText steps ++ s!"[{n}]" := by
  cases steps with
  | nil => simp [locationText, locationText.head]
  | cons first rest =>
    rw [List.cons_append, locationText, locationText, List.map_append, String.join_append]
    simp [locationText.tail, String.append_assoc]

inductive Cause where
  | missing
  | notAllowed
  | notText
  | notUnicode
  | notBool
  | notMapping
  | notOneOf (choices : String)
  | tooShort
  | keyNotText
  | other (message : String)
deriving DecidableEq

def Cause.message : Cause → String
  | .missing => "This field is required but was not provided"
  | .notAllowed => "This field is not allowed in this context"
  | .notText => "Must be a string"
  | .notUnicode =>
    "Input should be a valid string, unable to parse raw data as a unicode string"
  | .notBool => "Must be true or false"
  | .notMapping => "Must be a mapping"
  | .notOneOf choices => s!"Must be one of: {choices}"
  | .tooShort => "Must not be empty"
  | .keyNotText => "Keys should be strings"
  | .other message => message

structure Problem where
  location : List Step
  cause : Cause
deriving DecidableEq

/-- The problem seen from the container that `step` leads out of. -/
def Problem.within (step : Step) (p : Problem) : Problem := ⟨step :: p.location, p.cause⟩

/-- Location and message; an empty location is not shown. -/
def Problem.text (p : Problem) : String :=
  let location := locationText p.location
  if location == "" then p.cause.message else s!"{location}: {p.cause.message}"

end SchemaCompiler.Config
