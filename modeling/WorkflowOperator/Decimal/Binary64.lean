/-!
# Binary floating-point numbers of 64 bits

A number is its word of 64 bits: a sign, eleven bits of exponent and fifty-two of fraction.  All
arithmetic on it is exact arithmetic on whole numbers, so every function here can be computed with
and reasoned about.
-/

namespace WorkflowOperator

/-- A number of the binary format with 64 bits. -/
structure Binary64 where
  bits : UInt64
deriving DecidableEq, Repr, Inhabited

namespace Binary64

/-- The bits of the exponent and the fraction, as a whole number. -/
def magnitude (x : Binary64) : Nat := x.bits.toNat % (1 <<< 63)

def isNegative (x : Binary64) : Bool := 1 <<< 63 ≤ x.bits.toNat

def infinityMagnitude : Nat := 2047 <<< 52

def isInfinite (x : Binary64) : Bool := x.magnitude == infinityMagnitude

def isNaN (x : Binary64) : Bool := infinityMagnitude < x.magnitude

def isZero (x : Binary64) : Bool := x.magnitude == 0

/-- Whether the value compares as at least zero, which the negative zero does and no number that
is none. -/
def isNonnegative (x : Binary64) : Bool := !x.isNaN && (!x.isNegative || x.isZero)

def ofMagnitude (negative : Bool) (magnitude : Nat) : Binary64 :=
  ⟨UInt64.ofNat ((if negative then 1 <<< 63 else 0) + magnitude)⟩

def infinity (negative : Bool) : Binary64 := ofMagnitude negative infinityMagnitude

def nan : Binary64 := ⟨0x7ff8000000000000⟩

/-- The whole number `m` and the power `q` with which a finite value is `m * 2 ^ q`, leaving the
sign aside. -/
def significand (x : Binary64) : Nat × Int :=
  let field : Nat := x.magnitude >>> 52
  let fraction : Nat := x.magnitude % (1 <<< 52)
  if field = 0 then (fraction, -1074) else (fraction + 1 <<< 52, (field : Int) - 1075)

/-- A quotient rounded to the nearest whole number, a half to the even one. -/
def divideHalfEven (a b : Nat) : Nat :=
  let q := a / b
  let r := a % b
  if 2 * r < b then q else if b < 2 * r then q + 1 else if q % 2 = 0 then q else q + 1

/-- A quotient times a power of two, as a quotient. -/
def scale (a b : Nat) (e : Int) : Nat × Nat :=
  if 0 ≤ e then (a <<< e.toNat, b) else (a, b <<< (-e).toNat)

/-- The power of two that a positive quotient reaches but not the next one. -/
def floorLog2 (a b : Nat) : Int :=
  let l : Int := (Nat.log2 a : Int) - Nat.log2 b
  let s := scale b a l
  if s.1 ≤ s.2 then l else l - 1

/-- The value nearest to a quotient, with an even fraction if two are equally near, and infinite
beyond the finite ones. -/
def ofQuotient (negative : Bool) (a b : Nat) : Binary64 :=
  if a = 0 then ofMagnitude negative 0
  else
    let e := max (floorLog2 a b - 52) (-1074)
    let s := scale a b (-e)
    let m := (e + 1074).toNat <<< 52 + divideHalfEven s.1 s.2
    ofMagnitude negative (min m infinityMagnitude)

def ofInt (n : Int) : Binary64 := ofQuotient (n < 0) n.natAbs 1

/-- The value nearest to `digits * 10 ^ exponent`; exponents far outside of the format's range are
settled without computing the power. -/
def ofDecimal (negative : Bool) (digits : Nat) (exponent : Int) : Binary64 :=
  if digits = 0 then ofMagnitude negative 0
  else
    let places : Int := exponent + (Nat.toDigits 10 digits).length
    if 400 < places then infinity negative
    else if places < -400 then ofMagnitude negative 0
    else if 0 ≤ exponent then ofQuotient negative (digits * Nat.pow 10 exponent.toNat) 1
    else ofQuotient negative digits (Nat.pow 10 (-exponent).toNat)

example : ofInt 1 = ⟨0x3ff0000000000000⟩ ∧ ofInt (-3) = ⟨0xc008000000000000⟩ := by decide +kernel
example : ofDecimal false 1 (-1) = ⟨0x3fb999999999999a⟩ := by decide +kernel
example : ofDecimal false 49 (-325) = ⟨1⟩ ∧ ofDecimal false 1 400 = infinity false := by
  decide +kernel

end Binary64

end WorkflowOperator
