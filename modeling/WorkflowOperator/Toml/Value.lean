/-!
# TOML values

The values of a configuration text.  Of binary numbers, dates and times only the kind is kept: no
setting is one.
-/

namespace WorkflowOperator.Toml

inductive Value
  | text (s : String)
  | integer (n : Int)
  | float
  | boolean (b : Bool)
  | datetime
  | array (items : List Value)
  | table (entries : List (String × Value))
deriving Inhabited

end WorkflowOperator.Toml
