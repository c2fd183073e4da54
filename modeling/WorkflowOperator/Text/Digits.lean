/-!
# Digits

The values of digits, and the numbers and characters that texts of digits stand for.  Reading the digits of a number
gives back the number.
-/

namespace WorkflowOperator.Text

/-- The value of a digit of base sixteen, whose letters may be of either case. -/
def hexValue? (c : Char) : Option Nat :=
  if '0' ≤ c && c ≤ '9' then some (c.toNat - 48)
  else if 'a' ≤ c && c ≤ 'f' then some (c.toNat - 87)
  else if 'A' ≤ c && c ≤ 'F' then some (c.toNat - 55)
  else none

def digitValue? (base : Nat) (c : Char) : Option Nat := (hexValue? c).filter (· < base)

/-- The number that digits of a base up to sixteen stand for, if all characters are such. -/
def valueOfDigits? (base : Nat) (ds : List Char) : Option Nat :=
  ds.foldlM (fun n c => (digitValue? base c).map (base * n + ·)) 0

/-- The number that a text of digits of a base up to sixteen stands for; there must be one. -/
def readNatural? (base : Nat) (ds : List Char) : Option Nat :=
  if ds.isEmpty then none else valueOfDigits? base ds

/-- The character whose code point so many digits of base sixteen at the front stand for. -/
def codePoint? (width : Nat) (s : List Char) : Option Char :=
  let ds := s.take width
  if ds.length < width then none
  else (valueOfDigits? 16 ds).bind fun n =>
    if n.isValidChar then some (Char.ofNat n) else none

def valueOfDecimals (ds : List Char) : Nat := ds.foldl (fun n c => 10 * n + (c.toNat - 48)) 0

theorem valueOfDecimals_append_singleton (ds : List Char) (c : Char) :
    valueOfDecimals (ds ++ [c]) = 10 * valueOfDecimals ds + (c.toNat - 48) := by
  simp [valueOfDecimals]

theorem valueOfDecimals_toDigits (n : Nat) : valueOfDecimals (Nat.toDigits 10 n) = n := by
  induction n using Nat.strongRecOn with
  | ind n ih =>
    have hdigit : ∀ d, d < 10 → (Nat.digitChar d).toNat - 48 = d := by decide
    by_cases h : n < 10
    · rw [Nat.toDigits_of_lt_base h]
      simpa [valueOfDecimals] using hdigit n h
    · have hsplit := Nat.toDigits_append_toDigits (b := 10) (n := n / 10) (d := n % 10)
        (by decide) (by omega) (by omega)
      rw [Nat.toDigits_of_lt_base (show n % 10 < 10 by omega), Nat.div_add_mod] at hsplit
      rw [← hsplit, valueOfDecimals_append_singleton, ih (n / 10) (by omega),
        hdigit (n % 10) (by omega)]
      omega

theorem toString_injective {m n : Nat} (h : toString m = toString n) : m = n := by
  have htext : ∀ n : Nat, (toString n).toList = Nat.toDigits 10 n := fun n => Nat.toList_repr
  rw [← valueOfDecimals_toDigits m, ← valueOfDecimals_toDigits n, ← htext, ← htext, h]

end WorkflowOperator.Text
