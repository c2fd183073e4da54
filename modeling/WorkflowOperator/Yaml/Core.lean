import WorkflowOperator.Decimal.Notation
import WorkflowOperator.Yaml.Token

/-!
# What plain scalars stand for

A plain scalar is read as null, a truth value, a whole number or a binary number if it has one of
their spellings, and as a text otherwise.
-/

namespace WorkflowOperator.Yaml.Core

def isNull (s : String) : Bool := s == "null" || s == "Null" || s == "NULL" || s == "~"

def bool? (s : String) : Option Bool :=
  if s == "true" || s == "True" || s == "TRUE" then some true
  else if s == "false" || s == "False" || s == "FALSE" then some false
  else none

def startsSigned : List Char → Bool
  | c :: _ => c == '+' || c == '-'
  | [] => false

/-- The base that a text announces, and the digits after it. -/
def base? : List Char → Option (Nat × List Char)
  | '0' :: 'x' :: rest => some (16, rest)
  | '0' :: 'o' :: rest => some (8, rest)
  | '0' :: 'b' :: rest => some (2, rest)
  | _ => none

/-- Whether a text, its sign aside, is a zero and further digits, which is no number. -/
def hasLeadingZero (s : List Char) : Bool :=
  let ds := if startsSigned s then s.drop 1 else s
  match ds with
  | '0' :: rest@(_ :: _) => rest.all Char.isDigit
  | _ => false

/-- The whole number that a text spells without a minus sign. -/
def unsigned? (s : List Char) : Option Nat :=
  let u := if s.head? = some '+' then s.drop 1 else s
  match base? u with
  | some (base, rest) => Text.readNatural? base rest
  | none => if startsSigned u || hasLeadingZero s then none else Text.readNatural? 10 u

def negative? : List Char → Option Int
  | '-' :: u =>
    (match base? u with
      | some (base, rest) => Text.readNatural? base rest
      | none => if hasLeadingZero u then none else Text.readNatural? 10 u).map fun n => -(n : Int)
  | _ => none

def integer? (s : List Char) : Option Int :=
  match unsigned? s with
  | some n => some n
  | none => negative? s

def float? (s : String) : Option Binary64 :=
  let cs := s.toList
  let u := if cs.head? = some '+' then cs.drop 1 else cs
  let unsigned := String.ofList u
  if cs.head? = some '+' && startsSigned u then none
  else if unsigned == ".inf" || unsigned == ".Inf" || unsigned == ".INF" then
    some (Binary64.infinity false)
  else if s == "-.inf" || s == "-.Inf" || s == "-.INF" then some (Binary64.infinity true)
  else if s == ".nan" || s == ".NaN" || s == ".NAN" then some Binary64.nan
  else Binary64.readFinite? u

/-- What a scalar stands for. -/
inductive Meaning
  | null
  | bool (b : Bool)
  /-- A whole number of 64 bits. -/
  | int (n : Int)
  /-- A whole number of more than 64 but at most 128 bits, which no value can hold. -/
  | wide
  | float (x : Binary64)
  | text
  /-- A scalar that does not have the type its tag says. -/
  | mistagged
deriving DecidableEq, Repr

/-- The meaning of a whole number, unless it is too wide for any. -/
def integerMeaning? (s : List Char) : Option Meaning :=
  (integer? s).bind fun n =>
    if -0x8000000000000000 ≤ n && n < 0x10000000000000000 then some (.int n)
    else if -0x80000000000000000000000000000000 ≤ n &&
        n < 0x100000000000000000000000000000000 then some .wide
    else none

/-- The meaning of a plain scalar without a tag. -/
def plainMeaning (s : String) : Meaning :=
  if s.isEmpty || isNull s then .null
  else
    match bool? s with
    | some b => .bool b
    | none =>
      match integerMeaning? s.toList with
      | some m => m
      | none =>
        if hasLeadingZero s.toList then .text
        else
          match float? s with
          | some x => .float x
          | none => .text

def tagOf (type : String) : String := "tag:yaml.org,2002:" ++ type

/-- Whether a tag belongs to the document and not to a schema. -/
def isLocalTag (tag : String) : Bool := tag.toList.head? == some '!'

def meaning (tag : Option String) (style : Style) (s : String) : Meaning :=
  match tag with
  | none => if style = .plain then plainMeaning s else .text
  | some t =>
    if t == tagOf "bool" then ((bool? s).map .bool).getD .mistagged
    else if t == tagOf "int" then (integerMeaning? s.toList).getD .mistagged
    else if t == tagOf "float" then ((float? s).map .float).getD .mistagged
    else if t == tagOf "null" then (if isNull s then .null else .mistagged)
    else if isLocalTag t && style = .plain then plainMeaning s
    else .text

/-- Whether a scalar may be read as one of the type: it is plain, or a literal with the type's
tag. -/
def mayBe (type : String) (tag : Option String) (style : Style) : Bool :=
  style == .plain || (style == .literal && tag == some (tagOf type))

end WorkflowOperator.Yaml.Core
