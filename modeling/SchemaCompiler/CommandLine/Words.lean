/-!
The words of a command line. An option is a word that starts with two dashes, or a letter in a word
that starts with one dash; its value is what follows in the same word, or else the next word,
whatever that is. A word of two dashes only ends the options.
-/
namespace SchemaCompiler.CommandLine

inductive UsageError where
  | unknownOption (word : String)
  | missingValue (option : String)
  | needlessValue (option : String)
  | noCommand
  | unknownCommand (name : String)
  | missingFile
  | extraWord (word : String)
  /-- A path that is not there, or that is a file in place of a folder or the other way round. -/
  | unfitPath (path : String)
deriving DecidableEq

def UsageError.message : UsageError → String
  | .unknownOption word => s!"No such option: {word}"
  | .missingValue option => s!"Option {option} requires a value."
  | .needlessValue option => s!"Option {option} does not take a value."
  | .noCommand => "Missing command."
  | .unknownCommand name => s!"No such command: {name}"
  | .missingFile => "Missing file."
  | .extraWord word => s!"Unexpected word: {word}"
  | .unfitPath path => s!"Path cannot be used: {path}"

structure OptionName where
  long : String
  letter : Option Char := none
  takesValue : Bool := true
deriving DecidableEq

/-- Options with their values in the order in which they were given, and the other words. -/
structure Words where
  options : List (String × String)
  others : List String
deriving DecidableEq

namespace Words

/-- The value of an option: the last one given. -/
def value? (w : Words) (option : String) : Option String := w.options.reverse.lookup option

def has (w : Words) (option : String) : Bool := (w.value? option).isSome

def withOptions (options : List (String × String)) (w : Words) : Words :=
  { w with options := options ++ w.options }

def withOther (word : String) (w : Words) : Words := { w with others := word :: w.others }

end Words

/-- What a word gives: options that have all they need, and at last perhaps one whose value is the
next word. -/
structure Given where
  options : List (String × String)
  waiting : Option String

/-- The options of a word of letters. -/
def letters (known : List OptionName) : List Char → Except UsageError Given
  | [] => return ⟨[], none⟩
  | c :: rest =>
    match known.find? (·.letter == some c) with
    | none => throw (.unknownOption (String.ofList ['-', c]))
    | some o =>
      if o.takesValue then
        if rest.isEmpty then return ⟨[], some o.long⟩
        else return ⟨[(o.long, String.ofList rest)], none⟩
      else do
        let given ← letters known rest
        return { given with options := (o.long, "") :: given.options }

/-- The option of a word that starts with two dashes. -/
def longOption (known : List OptionName) (word : List Char) : Except UsageError Given :=
  let name := String.ofList (word.takeWhile (· != '='))
  let value := (word.dropWhile (· != '=')).tail?
  match known.find? (·.long == name), value with
  | none, _ => throw (.unknownOption name)
  | some o, none =>
    if o.takesValue then return ⟨[], some name⟩ else return ⟨[(name, "")], none⟩
  | some o, some value =>
    if o.takesValue then return ⟨[(name, String.ofList value)], none⟩
    else throw (.needlessValue name)

/-- The options of a word; none for a word that is no option. -/
def given? (known : List OptionName) (word : String) : Except UsageError (Option Given) :=
  match word.toList with
  | '-' :: '-' :: rest => some <$> longOption known ('-' :: '-' :: rest)
  | '-' :: c :: rest => some <$> letters known (c :: rest)
  | _ => return none

/-- Reads words from the first to the last. Unless options may come `anywhere`, the first word that
is no option ends them. -/
def readWords (known : List OptionName) (anywhere : Bool) : List String → Except UsageError Words
  | [] => return ⟨[], []⟩
  | word :: rest =>
    if word == "--" then return ⟨[], rest⟩
    else do
      match ← given? known word with
      | none =>
        if anywhere then return (← readWords known anywhere rest).withOther word
        else return ⟨[], word :: rest⟩
      | some ⟨options, none⟩ => return (← readWords known anywhere rest).withOptions options
      | some ⟨options, some name⟩ =>
        match rest with
        | [] => throw (.missingValue name)
        | value :: rest =>
          return (← readWords known anywhere rest).withOptions (options ++ [(name, value)])

end SchemaCompiler.CommandLine
