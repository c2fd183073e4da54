import WorkflowOperator.Text.Unprintable

/-!
# Characters and texts quoted in messages

Messages quote what they complain about.  What a reader could not see or could mistake is written
as an escape: a short one for the common controls, the code point in braces for the rest.
-/

namespace WorkflowOperator.Text

/-- The lowercase hexadecimal digits of a number, without leading zeros. -/
def hexDigits (n : Nat) : List Char := Nat.toDigits 16 n

/-- One character as it is written between quotes of the given kind. -/
def quotedChar (quote : Char) (c : Char) : List Char :=
  if c = '\x00' then ['\\', '0']
  else if c = '\t' then ['\\', 't']
  else if c = '\r' then ['\\', 'r']
  else if c = '\n' then ['\\', 'n']
  else if c = '\\' || c = quote then ['\\', c]
  else if Unprintable.holds c then
    ['\\', 'u', Char.ofNat 0x7B] ++ hexDigits c.toNat ++ [Char.ofNat 0x7D]
  else [c]

def quoteChar (c : Char) : String :=
  String.ofList ('\'' :: quotedChar '\'' c ++ ['\''])

def quoteText (s : String) : String :=
  String.ofList ('"' :: s.toList.flatMap (quotedChar '"') ++ ['"'])

end WorkflowOperator.Text
