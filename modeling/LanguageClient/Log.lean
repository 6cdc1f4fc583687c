/-!
The journal: one record per event worth telling, each with its weight.
-/

namespace LanguageClient

/-- The weight of a record. -/
inductive Level where
  | info | warning | error | debug
  deriving DecidableEq, Repr

def Level.label : Level → String
  | .info => "INFO"
  | .warning => "WARNING"
  | .error => "ERROR"
  | .debug => "DEBUG"

/-- One line of the journal. -/
structure Record where
  level : Level
  message : String
  deriving DecidableEq, Repr

/-- The records written so far, oldest first. -/
abbrev Journal := List Record

namespace Journal

def write (level : Level) (message : String) (j : Journal) : Journal := j ++ [⟨level, message⟩]

end Journal

end LanguageClient
