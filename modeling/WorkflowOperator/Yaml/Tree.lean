import WorkflowOperator.Json
import WorkflowOperator.Yaml.Value

/-!
# Trees of values

The value of a JSON text, and the tree that a reader finds in the document of a value.
-/

namespace WorkflowOperator.Yaml

namespace Value

mutual

def ofJson : Json → Value
  | .null => .null
  | .bool b => .bool b
  | .number digits places =>
    if places = 0 then .int digits
    else .float (Binary64.ofDecimal (digits < 0) digits.natAbs (-(places : Int)))
  | .string s => .string s
  | .array items => .sequence (ofItems items)
  | .object members => .mapping (ofMembers members)

def ofItems : List Json → List Value
  | [] => []
  | v :: rest => ofJson v :: ofItems rest

def ofMembers : List (String × Json) → List (Value × Value)
  | [] => []
  | (name, v) :: rest => (.string name, ofJson v) :: ofMembers rest

end

end Value

namespace Node

def plain (s : String) : Node := .scalar none none .plain s

mutual

/-- The tree of a value's document; every text is quoted in it. -/
def ofValue : Value → Node
  | .null => plain "null"
  | .bool b => plain (if b then "true" else "false")
  | .int n => plain (toString n)
  | .float x => plain x.inDocument
  | .string s => .scalar none none .doubleQuoted s
  | .sequence vs => .sequence none none (ofItems vs)
  | .mapping es => .mapping none none (ofEntries es)
  | .tagged tag v => (ofValue v).withTag ("!" ++ tag)

def ofItems : List Value → List Node
  | [] => []
  | v :: rest => ofValue v :: ofItems rest

def ofEntries : List (Value × Value) → List (Node × Node)
  | [] => []
  | (k, v) :: rest => (ofValue k, ofValue v) :: ofEntries rest

end

end Node

end WorkflowOperator.Yaml
