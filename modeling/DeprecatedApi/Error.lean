/-!
# Errors

* `Error`: what can go wrong, with the file it went wrong in.
* `Error.message`: the text a user sees.
* `Error.isRecoverable`, `Error.path?`, `Error.hasSource`: what callers ask of an error.
-/

namespace DeprecatedApi

/-- What can go wrong. -/
inductive Error where
  /-- A file could not be read. -/
  | io (path detail : String)
  /-- A configuration file could not be understood. -/
  | config (path detail : String)
  /-- A rule text could not be turned into rules. -/
  | ruleSet (detail : String)
  /-- A fact file could not be decoded. -/
  | facts (path detail : String)
  /-- An argument makes no sense. -/
  | invalidArgument (detail : String)
  deriving DecidableEq, Repr

namespace Error

/-- The text of an error. -/
def message : Error → String
  | .io path detail => "I/O error at " ++ path ++ ": " ++ detail
  | .config path detail => "Config error at " ++ path ++ ": " ++ detail
  | .ruleSet detail => "Invalid deprecated API configuration: " ++ detail
  | .facts path detail => "Invalid fact file " ++ path ++ ": " ++ detail
  | .invalidArgument detail => "Invalid argument: " ++ detail

/-- Whether an analysis goes on without the input that caused the error. -/
def isRecoverable : Error → Bool
  | .ruleSet _ => true
  | .facts _ _ => true
  | .config _ _ => true
  | .io _ _ => false
  | .invalidArgument _ => false

/-- The file that an error is about. -/
def path? : Error → Option String
  | .io path _ => some path
  | .config path _ => some path
  | .facts path _ => some path
  | .ruleSet _ => none
  | .invalidArgument _ => none

/-- Whether an error was caused by an error of the operating system. -/
def hasSource : Error → Bool
  | .io _ _ => true
  | _ => false

end Error

end DeprecatedApi
