import WorkflowOperator.Decimal.Shortest
import WorkflowOperator.Text.Digits

/-!
# Decimal notation of binary numbers

Reading of decimal texts, and the two notations in which numbers are written: always positional in
messages, and with an exponent for very large and very small values in documents.
-/

namespace WorkflowOperator

namespace Decimal

def digitsOf (n : Nat) : List Char := Nat.toDigits 10 n

/-- Positional notation; a whole number has no point. -/
def positional (d : Decimal) : List Char :=
  let ds := digitsOf d.digits
  if 0 ≤ d.exponent then
    if d.digits = 0 then ds else ds ++ List.replicate d.exponent.toNat '0'
  else
    let places := (-d.exponent).toNat
    let padded := List.replicate (places + 1 - ds.length) '0' ++ ds
    padded.take (padded.length - places) ++ '.' :: padded.drop (padded.length - places)

/-- Notation with one digit before the point and an exponent. -/
def scientific (d : Decimal) : List Char :=
  let ds := digitsOf d.digits
  let e := d.exponent + (ds.length - 1 : Nat)
  let mantissa := match ds with
    | c :: rest@(_ :: _) => c :: '.' :: rest
    | short => short
  mantissa ++ 'e' :: (toString e).toList

/-- A whole number with an optional sign, as in an exponent. -/
def readExponent? (s : List Char) : Option Int :=
  let (negative, ds) := match s with
    | '-' :: r => (true, r)
    | '+' :: r => (false, r)
    | r => (false, r)
  (Text.readNatural? 10 ds).map fun n => if negative then -(n : Int) else n

/-- A decimal without sign: digits, perhaps a point among or around them, and perhaps an
exponent. -/
def readUnsigned? (s : List Char) : Option Decimal :=
  let whole := s.takeWhile Char.isDigit
  let afterWhole := s.dropWhile Char.isDigit
  let (fraction, afterFraction) := match afterWhole with
    | '.' :: r => (r.takeWhile Char.isDigit, r.dropWhile Char.isDigit)
    | r => ([], r)
  if whole.isEmpty && fraction.isEmpty then none
  else
    let value (e : Int) : Decimal := ⟨Text.valueOfDecimals (whole ++ fraction), e - fraction.length⟩
    match afterFraction with
    | [] => some (value 0)
    | c :: r => if c = 'e' || c = 'E' then (readExponent? r).map value else none

end Decimal

namespace Binary64

/-- The finite value of a decimal with an optional sign; values beyond the format's range are
refused. -/
def readFinite? (s : List Char) : Option Binary64 :=
  let (negative, r) := match s with
    | '-' :: r => (true, r)
    | '+' :: r => (false, r)
    | r => (false, r)
  match Decimal.readUnsigned? r with
  | none => none
  | some d =>
    let x := ofDecimal negative d.digits d.exponent
    if x.isInfinite then none else some x

def signText (x : Binary64) : List Char := if x.isNegative then ['-'] else []

/-- A value as messages show it: positional, with no point in a whole number. -/
def inMessage (x : Binary64) : String :=
  if x.isNaN then "NaN"
  else if x.isInfinite then String.ofList (x.signText ++ "inf".toList)
  else String.ofList (x.signText ++ (Decimal.shortest x).positional)

/-- A value as documents show it: a point in whole numbers, an exponent from `1e16` on and below
`1e-5`. -/
def inDocument (x : Binary64) : String :=
  if x.isNaN then ".nan"
  else if x.isInfinite then String.ofList (x.signText ++ ".inf".toList)
  else
    let d := Decimal.shortest x
    let point : Int := d.exponent + (Decimal.digitsOf d.digits).length
    let body :=
      if d.digits = 0 then "0.0".toList
      else if -5 < point ∧ point ≤ 16 then
        if 0 ≤ d.exponent then d.positional ++ ".0".toList else d.positional
      else d.scientific
    String.ofList (x.signText ++ body)

end Binary64

end WorkflowOperator
