/-!
# Blank characters

The characters with the property of white space, and texts freed of them at their ends.
-/

namespace WorkflowOperator.Text

/-- The characters that count as white space in any script. -/
def isBlank (c : Char) : Bool :=
  let n := c.toNat
  (9 ≤ n && n ≤ 13) || n == 0x20 || n == 0x85 || n == 0xA0 || n == 0x1680 ||
    (0x2000 ≤ n && n ≤ 0x200A) || n == 0x2028 || n == 0x2029 || n == 0x202F || n == 0x205F ||
    n == 0x3000

/-- The white space of plain seven-bit text: space, tab, line feed, line tabulation, form feed,
carriage return. -/
def isAsciiBlank (c : Char) : Bool :=
  c.toNat == 0x20 || (9 ≤ c.toNat && c.toNat ≤ 13)

def trimEnd (s : List Char) : List Char :=
  (s.reverse.dropWhile isBlank).reverse

def isBlankText (s : String) : Bool := s.toList.all isBlank

end WorkflowOperator.Text
