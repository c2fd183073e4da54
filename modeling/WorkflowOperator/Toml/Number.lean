import WorkflowOperator.Date
import WorkflowOperator.Decimal.Notation
import WorkflowOperator.Toml.Value

/-!
# Numbers, dates and times of TOML

Underscores may stand between two digits.  Dates and times are checked against the calendar and the
clock and told apart from numbers by their signs.
-/

namespace WorkflowOperator.Toml

open Text

/-- Further digits, with single underscores between them, and what follows. -/
def moreDigits (p : Char → Bool) : List Char → List Char × List Char
  | '_' :: c :: rest =>
    if p c then
      let (ds, more) := moreDigits p rest
      (c :: ds, more)
    else ([], '_' :: c :: rest)
  | c :: rest =>
    if p c then
      let (ds, more) := moreDigits p rest
      (c :: ds, more)
    else ([], c :: rest)
  | [] => ([], [])

/-- One or more digits, with single underscores between them, and what follows. -/
def readDigits? (p : Char → Bool) : List Char → Option (List Char × List Char)
  | c :: rest =>
    if p c then
      let (ds, more) := moreDigits p rest
      some (c :: ds, more)
    else none
  | [] => none

/-- The sign at the front, whether it is a minus, and what follows. -/
def readSign : List Char → Bool × List Char
  | '-' :: rest => (true, rest)
  | '+' :: rest => (false, rest)
  | s => (false, s)

/-- The digits of a whole number, which has no leading zero. -/
def readWhole? : List Char → Option (List Char × List Char)
  | '0' :: rest => some (['0'], rest)
  | s => readDigits? Char.isDigit s

/-- A whole number of 64 bits. -/
def integerValue? (n : Int) : Option Value :=
  if -0x8000000000000000 ≤ n ∧ n < 0x8000000000000000 then some (.integer n) else none

/-- A whole number in another base than ten, after its mark. -/
def readBased? (base : Nat) (s : List Char) : Option (Value × List Char) := do
  let (ds, rest) ← readDigits? (fun c => (digitValue? base c).isSome) s
  return (← integerValue? (← valueOfDigits? base ds), rest)

def readInteger? : List Char → Option (Value × List Char)
  | '0' :: 'x' :: rest => readBased? 16 rest
  | '0' :: 'o' :: rest => readBased? 8 rest
  | '0' :: 'b' :: rest => readBased? 2 rest
  | s => do
    let (negative, s) := readSign s
    let (ds, rest) ← readWhole? s
    let n : Int := valueOfDecimals ds
    return (← integerValue? (if negative then -n else n), rest)

def readExponent? : List Char → Option (List Char × List Char)
  | c :: rest =>
    if c = 'e' ∨ c = 'E' then
      let (negative, s) := readSign rest
      (readDigits? Char.isDigit s).map fun r =>
        ('e' :: (if negative then ['-'] else []) ++ r.1, r.2)
    else none
  | [] => none

def readFraction? : List Char → Option (List Char × List Char)
  | '.' :: rest => (readDigits? Char.isDigit rest).map fun r => ('.' :: r.1, r.2)
  | _ => none

/-- A binary number with a fraction, an exponent or both; one beyond all finite ones is refused unless
it is negative. -/
def readDecimal? (s : List Char) : Option (Value × List Char) := do
  let (negative, s) := readSign s
  let (whole, s) ← readWhole? s
  let (tail, rest) ← match readFraction? s with
    | some (fraction, s) =>
      match readExponent? s with
      | some (exponent, s) => some (fraction ++ exponent, s)
      | none => some (fraction, s)
    | none => readExponent? s
  if negative || (Binary64.readFinite? (whole ++ tail)).isSome then some (.float, rest) else none

/-- An infinity or no number, with an optional sign. -/
def readSpecial? (s : List Char) : Option (Value × List Char) :=
  match (readSign s).2 with
  | 'i' :: 'n' :: 'f' :: rest => some (.float, rest)
  | 'n' :: 'a' :: 'n' :: rest => some (.float, rest)
  | _ => none

def readFixed? (width : Nat) (s : List Char) : Option (Nat × List Char) :=
  let ds := s.take width
  if ds.length = width ∧ ds.all Char.isDigit then some (valueOfDecimals ds, s.drop width) else none

def after? (c : Char) : List Char → Option (List Char)
  | d :: rest => if d = c then some rest else none
  | [] => none

def afterDate? (s : List Char) : Option (List Char) := do
  let (year, s) ← readFixed? 4 s
  let (month, s) ← readFixed? 2 (← after? '-' s)
  let (day, s) ← readFixed? 2 (← after? '-' s)
  if (Date.mk year month day).isValid then some s else none

def afterTime? (s : List Char) : Option (List Char) := do
  let (hour, s) ← readFixed? 2 s
  let (minute, s) ← readFixed? 2 (← after? ':' s)
  let (second, s) ← readFixed? 2 (← after? ':' s)
  if hour ≤ 23 ∧ minute ≤ 59 ∧ second ≤ 60 then
    match s with
    | '.' :: rest =>
      match rest.takeWhile Char.isDigit with
      | [] => none
      | ds => some (rest.drop ds.length)
    | s => some s
  else none

def afterOffset? : List Char → Option (List Char)
  | c :: rest =>
    if c = 'Z' ∨ c = 'z' then some rest
    else if c = '+' ∨ c = '-' then do
      let (hour, s) ← readFixed? 2 rest
      let (minute, s) ← readFixed? 2 (← after? ':' s)
      if hour ≤ 23 ∧ minute ≤ 59 then some s else none
    else none
  | [] => none

def afterTimeSign? : List Char → Option (List Char)
  | c :: rest => if c = 'T' ∨ c = 't' ∨ c = ' ' then some rest else none
  | [] => none

/-- What follows the time after a date, with its offset if it has one. -/
def afterTimeOfDate? (s : List Char) : Option (List Char) := do
  let s ← afterTime? (← afterTimeSign? s)
  return (afterOffset? s).getD s

/-- A date with or without a time, or a time alone. -/
def readDatetime? (s : List Char) : Option (Value × List Char) :=
  match afterDate? s with
  | some rest => some (.datetime, (afterTimeOfDate? rest).getD rest)
  | none => (afterTime? s).map fun rest => (.datetime, rest)

def readNumber? (s : List Char) : Option (Value × List Char) :=
  (readDatetime? s).orElse fun _ => (readDecimal? s).orElse fun _ =>
    (readSpecial? s).orElse fun _ => readInteger? s

end WorkflowOperator.Toml
