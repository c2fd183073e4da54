/-!
# Unique identifiers

Identifiers of 128 bits in groups of hexadecimal digits, with the marks of those that are drawn at
random.
-/

namespace WorkflowOperator.Text

/-- The lowercase hexadecimal digits of a number, exactly so many. -/
def fixedHex (width n : Nat) : List Char :=
  let ds := Nat.toDigits 16 (n % Nat.pow 16 width)
  List.replicate (width - ds.length) '0' ++ ds

/-- The identifier made of a number of 122 bits. -/
def uidText (n : Nat) : String :=
  String.ofList <|
    fixedHex 8 n ++ '-' :: fixedHex 4 (n >>> 32) ++ '-' :: '4' :: fixedHex 3 (n >>> 48) ++
    '-' :: fixedHex 4 (0x8000 + (n >>> 60) % 0x4000) ++ '-' :: fixedHex 12 (n >>> 74)

/-- An odd number with bits all over, by which numbers of 122 bits are spread. -/
def uidStride : Nat := 0x9e3779b97f4a7c15f39cc0605cedc835

/-- The identifier number `n` of those that start from a seed; no two of the first `2 ^ 122` are
equal. -/
def uidFrom (seed n : Nat) : String := uidText ((seed + n * uidStride) % (1 <<< 122))

end WorkflowOperator.Text
