import WorkflowOperator.Json
import WorkflowOperator.Resource.Kind

/-!
# Errors

Every failure carries a stable code and a category, from which a caller decides whether to mend
its input, to try again or to give up.
-/

namespace WorkflowOperator

/-- What a caller can do about an error. -/
inductive ErrorCategory
  /-- The desired state is wrong; trying again helps only after it changes. -/
  | clientError
  /-- The store or its transport failed; trying again may help. -/
  | transient
  /-- Assembly or configuration is broken; trying again does not help. -/
  | permanent
  /-- An expected answer of the store, dealt with during convergence. -/
  | conflict
deriving DecidableEq, Repr

def ErrorCategory.name : ErrorCategory → String
  | .clientError => "client_error"
  | .transient => "transient"
  | .permanent => "permanent"
  | .conflict => "conflict"

/-- A failure, with its cause in words where it has one. -/
inductive Error
  /-- The desired state breaks a rule. -/
  | validation (cause : String)
  | notFound (kind : ResourceKind) (name : String)
  | alreadyExists (kind : ResourceKind) (name : String)
  /-- A template cannot be filled in. -/
  | template (cause : String)
  | store (cause : String)
  /-- A text is no workflow document. -/
  | parse (cause : String)
  /-- The configuration cannot be read. -/
  | config (cause : String)
  /-- A rule that the program keeps by itself is broken. -/
  | internal (cause : String)
  | yaml (cause : String)
  | json (cause : String)
  | file (cause : String)
deriving DecidableEq, Repr

namespace Error

def code : Error → String
  | .validation _ => "VALIDATION_ERROR"
  | .notFound .. => "NOT_FOUND"
  | .alreadyExists .. => "ALREADY_EXISTS"
  | .template _ => "TEMPLATE_ERROR"
  | .store _ => "STORE_ERROR"
  | .parse _ => "PARSE_ERROR"
  | .config _ => "CONFIG_ERROR"
  | .internal _ => "INTERNAL_ERROR"
  | .yaml _ => "YAML_ERROR"
  | .json _ => "JSON_ERROR"
  | .file _ => "IO_ERROR"

def category : Error → ErrorCategory
  | .validation _ | .parse _ | .yaml _ | .json _ => .clientError
  | .notFound .. | .alreadyExists .. => .conflict
  | .store _ | .file _ => .transient
  | .template _ | .config _ | .internal _ => .permanent

def message : Error → String
  | .validation cause => "Validation error: " ++ cause
  | .notFound kind name => kind.name ++ " " ++ name ++ " not found"
  | .alreadyExists kind name => kind.name ++ " " ++ name ++ " already exists"
  | .template cause => "Template error: " ++ cause
  | .store cause => "Store error: " ++ cause
  | .parse cause => "Parse error: " ++ cause
  | .config cause => "Configuration error: " ++ cause
  | .internal cause => "Internal error: " ++ cause
  | .yaml cause => "YAML error: " ++ cause
  | .json cause => "JSON error: " ++ cause
  | .file cause => "IO error: " ++ cause

def isNotFound : Error → Bool
  | .notFound .. => true
  | _ => false

def isAlreadyExists : Error → Bool
  | .alreadyExists .. => true
  | _ => false

/-- The underlying cause of an error that only passes on what a reader, a writer or a file
reported. -/
def source? : Error → Option String
  | .yaml cause | .json cause | .file cause => some cause
  | _ => none

def toJson (e : Error) : Json :=
  Json.ofMembers [
    ("success", .bool false),
    ("error", Json.ofMembers [
      ("code", .string e.code),
      ("category", .string e.category.name),
      ("message", .string e.message)])]

end Error

/-- The result of a step that may fail. -/
abbrev Outcome (α : Type) := Except Error α

end WorkflowOperator
