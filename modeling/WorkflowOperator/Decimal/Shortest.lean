import WorkflowOperator.Decimal.Binary64

/-!
# The shortest decimal that reads back

Among the decimals that round to a given binary value, the one with the fewest digits, and the
nearest to the value of those.
-/

namespace WorkflowOperator

/-- The decimal `digits * 10 ^ exponent`. -/
structure Decimal where
  digits : Nat
  exponent : Int
deriving DecidableEq, Repr, Inhabited

namespace Decimal

/-- A positive quotient of whole numbers, scaled by a power of ten, as a quotient. -/
def scaleTen (a b : Nat) (e : Int) : Nat × Nat :=
  if 0 ≤ e then (a * Nat.pow 10 e.toNat, b) else (a, b * Nat.pow 10 (-e).toNat)

/-- The reals that round to `m * 2 ^ q`, as a lower end, the value and an upper end over one
denominator: half a unit to either side, a quarter below a power of two. -/
def roundingInterval (m : Nat) (q : Int) : (Nat × Nat × Nat) × Nat :=
  let low := if m = 1 <<< 52 ∧ -1074 < q then 4 * m - 1 else 4 * m - 2
  let s := Binary64.scale 1 4 q
  ((low * s.1, 4 * m * s.1, (4 * m + 2) * s.1), s.2)

/-- Whether a whole number of units `u / v` lies in an interval over a denominator; its ends count
if `closed` is set. -/
def inInterval (closed : Bool) (low high den : Nat) (d u v : Nat) : Bool :=
  let x := d * u * den
  if closed then low * v ≤ x && x ≤ high * v else low * v < x && x < high * v

/-- The nearer of the two multiples of `10 ^ k` around a value that lies in its interval. -/
def onGrid? (closed : Bool) (low mid high den : Nat) (k : Int) : Option Nat :=
  let unit := scaleTen 1 1 k
  let s := scaleTen mid den (-k)
  let below := s.1 / s.2
  let above := below + 1
  let lowHit := inInterval closed low high den below unit.1 unit.2 && below != 0
  let highHit := inInterval closed low high den above unit.1 unit.2
  if lowHit && highHit then
    if s.1 * 2 < (2 * below + 1) * s.2 then some below
    else if (2 * below + 1) * s.2 < s.1 * 2 then some above
    else if below % 2 = 0 then some below else some above
  else if lowHit then some below
  else if highHit then some above
  else none

/-- The power of ten that a positive quotient reaches but not the next one, searched downwards. -/
def floorLog10 (a b : Nat) : Nat → Int → Int
  | 0, e => e
  | fuel + 1, e =>
    let s := scaleTen 1 1 e
    if s.1 * b ≤ a * s.2 then e else floorLog10 a b fuel (e - 1)

/-- The first grid with a hit, from one digit on. -/
def searchGrids (closed : Bool) (low mid high den : Nat) (top : Int) : List Nat → Decimal
  | [] => ⟨0, 0⟩
  | n :: rest =>
    let k := top - n
    match onGrid? closed low mid high den k with
    | some d => ⟨d, k⟩
    | none => searchGrids closed low mid high den top rest

/-- Takes the zeros off the end of the digits. -/
def normalize (d : Decimal) : Nat → Decimal
  | 0 => d
  | fuel + 1 =>
    if d.digits ≠ 0 ∧ d.digits % 10 = 0 then normalize ⟨d.digits / 10, d.exponent + 1⟩ fuel else d

/-- The shortest decimal that rounds to a positive finite value, leaving the sign aside. -/
def shortest (x : Binary64) : Decimal :=
  let (m, q) := x.significand
  if m = 0 then ⟨0, 0⟩
  else
    let ((low, mid, high), den) := roundingInterval m q
    let estimate : Int := ((Nat.log2 m : Int) + q) * 30103 / 100000 + 2
    let top := floorLog10 mid den 8 estimate
    let d := searchGrids (m % 2 = 0) low mid high den (top + 1) (List.range' 1 17)
    normalize d 20

example : shortest (Binary64.ofDecimal false 1 (-1)) = ⟨1, -1⟩ := by decide +kernel
example : shortest ⟨1⟩ = ⟨5, -324⟩ := by decide +kernel
example : shortest (Binary64.ofInt 9007199254740993) = ⟨9007199254740992, 0⟩ := by decide +kernel

end Decimal

end WorkflowOperator
