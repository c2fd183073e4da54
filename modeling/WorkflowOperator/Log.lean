/-!
# Logging settings

Which messages are logged and in which form, as environment variables say.
-/

namespace WorkflowOperator

/-- The form of log lines. -/
inductive LogFormat
  | lines
  | json
deriving DecidableEq, Repr

/-- The form that a text names, in letters of either case. -/
def LogFormat.ofText? (s : String) : Option LogFormat :=
  let s := String.ofList (s.toList.map Char.toLower)
  if s == "fmt" || s == "text" || s == "pretty" then some .lines
  else if s == "json" then some .json
  else none

def LogFormat.unknown (s : String) : String := "Unknown log format: " ++ s

/-- Which messages are logged and in which form. -/
structure LogConfig where
  filter : String
  format : LogFormat
deriving DecidableEq, Repr

namespace LogConfig

/-- The settings that environment variables make. -/
def ofEnvironment (env : String → Option String) : LogConfig where
  filter := ((env "STAGEWRIGHT_LOG").orElse fun _ => env "RUST_LOG").getD "info"
  format := ((env "STAGEWRIGHT_LOG_FORMAT").bind LogFormat.ofText?).getD .lines

/-- The settings with messages of all kinds, as for finding a fault. -/
def verbose (c : LogConfig) : LogConfig := { c with filter := "debug" }

end LogConfig

end WorkflowOperator
