import WorkflowOperator.Text.Digits

/-!
# Counts in words

Numbers as people write them on command lines and in environment variables.
-/

namespace WorkflowOperator.Text

/-- A number of 32 bits, with a plus sign if its author likes one. -/
def readCount? (s : String) : Option UInt32 :=
  let ds := match s.toList with
    | '+' :: rest => rest
    | cs => cs
  ((readNatural? 10 ds).filter (· < UInt32.size)).map UInt32.ofNat

/-- A number of 32 bits, with a sign of either kind; only zero can have a minus sign. -/
def readSignedCount? (s : String) : Option UInt32 :=
  match s.toList with
  | '-' :: ds => ((readNatural? 10 ds).filter (· = 0)).map UInt32.ofNat
  | _ => readCount? s

end WorkflowOperator.Text
