/-! Lines of the program's log. -/
namespace SchemaCompiler

inductive Level where
  | debug
  | info
  | warning
deriving DecidableEq

def Level.name : Level → String
  | .debug => "DEBUG"
  | .info => "INFO"
  | .warning => "WARNING"

/-- The weight of a level; a log shows the lines from some weight on. -/
def Level.weight : Level → Nat
  | .debug => 0
  | .info => 1
  | .warning => 2

structure LogLine where
  level : Level
  message : String
deriving DecidableEq

def LogLine.text (l : LogLine) : String := s!"{l.level.name} {l.message}"

/-- The lines of at least a level. -/
def LogLine.ofLeast (least : Level) (lines : List LogLine) : List LogLine :=
  lines.filter fun l => least.weight ≤ l.level.weight

end SchemaCompiler
