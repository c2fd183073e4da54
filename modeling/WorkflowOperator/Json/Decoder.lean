import WorkflowOperator.Json

/-!
# Reading typed data from JSON

A decoder reads a value of a known type from a JSON value.  A record is read from an object by the
names of its fields, or from an array by their positions; members that the record does not know are
passed over.
-/

namespace WorkflowOperator.Json

/-- Why a JSON value is not what is wanted. -/
inductive Fault
  | missing (name : String)
  | unexpected (wanted : String)
deriving DecidableEq, Repr

def Fault.message : Fault → String
  | .missing name => "missing field \x60" ++ name ++ "\x60"
  | .unexpected wanted => "expected " ++ wanted

/-- A way to read a value. -/
abbrev Decoder (α : Type) := Json → Except Fault α

namespace Decoder

variable {α : Type}

def text : Decoder String
  | .string s => .ok s
  | _ => .error (.unexpected "a string")

def flag : Decoder Bool
  | .bool b => .ok b
  | _ => .error (.unexpected "a boolean")

/-- An unsigned number of 32 bits, written without a fraction. -/
def word32 : Decoder UInt32
  | .number n 0 =>
    if 0 ≤ n ∧ n < 0x100000000 then .ok (UInt32.ofNat n.toNat) else .error (.unexpected "u32")
  | _ => .error (.unexpected "u32")

def list (d : Decoder α) : Decoder (List α)
  | .array items => items.mapM d
  | _ => .error (.unexpected "an array")

def textMap (d : Decoder α) : Decoder (TextMap α)
  | .object members => members.foldlM (fun m e => (d e.2).map (m.insert e.1)) ∅
  | _ => .error (.unexpected "an object")

def nullable (d : Decoder α) : Decoder (Option α)
  | .null => .ok none
  | v => (d v).map some

/-- The members of a record, by the names of its fields. -/
abbrev Members := String → Option Json

def members (fields : List String) : Decoder Members
  | .object ms => .ok fun name => (Json.object ms).member? name
  | .array items =>
    if items.length ≤ fields.length then .ok fun name => items[fields.idxOf name]?
    else .error (.unexpected "fewer items")
  | _ => .error (.unexpected "an object")

/-- A member that must be there. -/
def required (ms : Members) (name : String) (d : Decoder α) : Except Fault α :=
  match ms name with
  | some v => d v
  | none => .error (.missing name)

/-- A member with a value for when it is left out. -/
def withDefault (ms : Members) (name : String) (d : Decoder α) (default : α) : Except Fault α :=
  match ms name with
  | some v => d v
  | none => .ok default

end Decoder

end WorkflowOperator.Json
