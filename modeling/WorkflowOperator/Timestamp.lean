import WorkflowOperator.Date
import WorkflowOperator.Text.Blank
import WorkflowOperator.Text.Digits

/-!
# Points in time

A point in time is a minute of universal time, a second of that minute, and a fraction of the second.
Texts give it as a date, a time of day and an offset from universal time in minutes.
-/

namespace WorkflowOperator

open Text

/-- A point in time. -/
structure Timestamp where
  /-- The minutes from the start of the year 1970 on. -/
  minute : Int
  /-- The second of the minute.  A sixty-first one is a leap second. -/
  second : Nat
  nanosecond : Nat
deriving DecidableEq, Repr, Inhabited

namespace Timestamp

/-- A number of at most so many digits, after blanks, and the text after it. -/
def readCount? (width : Nat) (s : List Char) : Option (Nat × List Char) :=
  let s := s.dropWhile isBlank
  let ds := (s.takeWhile Char.isDigit).take width
  if ds.isEmpty then none else some (valueOfDecimals ds, s.drop ds.length)

/-- A year: up to four digits, or a sign and any number of them. -/
def readYear? (s : List Char) : Option (Int × List Char) :=
  match s.dropWhile isBlank with
  | '-' :: rest => if rest.head?.any Char.isDigit then
      (readCount? rest.length rest).map fun r => (-(r.1 : Int), r.2) else none
  | '+' :: rest => if rest.head?.any Char.isDigit then
      (readCount? rest.length rest).map fun r => ((r.1 : Int), r.2) else none
  | s => (readCount? 4 s).map fun r => ((r.1 : Int), r.2)

/-- The text after a given sign, which blanks may precede. -/
def afterSign? (sign : Char) (s : List Char) : Option (List Char) :=
  match s.dropWhile isBlank with
  | c :: rest => if c = sign then some rest else none
  | [] => none

/-- The nanoseconds of a fraction of a second, if one follows, and the text after it. -/
def readFraction? : List Char → Option (Nat × List Char)
  | '.' :: rest =>
    let ds := rest.takeWhile Char.isDigit
    if ds.isEmpty then none
    else
      let kept := ds.take 9
      some (valueOfDecimals kept * Nat.pow 10 (9 - kept.length), rest.drop ds.length)
  | s => some (0, s)

def readPair? : List Char → Option (Nat × List Char)
  | a :: b :: rest => if a.isDigit && b.isDigit then some (valueOfDecimals [a, b], rest) else none
  | _ => none

/-- Hours and minutes of an offset, with colons or blanks between them, and the text after it. -/
def readHoursMinutes? (s : List Char) : Option (Nat × List Char) := do
  let (hours, s) ← readPair? s
  let (minutes, s) ← readPair? (s.dropWhile fun c => c == ':' || isBlank c)
  if minutes < 60 ∧ hours < 24 then some (60 * hours + minutes, s) else none

/-- The minutes that local time is ahead of universal time, and the text after them. -/
def readOffset? (s : List Char) : Option (Int × List Char) :=
  if (s.take 3).map Char.toUpper == ['U', 'T', 'C'] then some (0, s.drop 3)
  else
    match s with
    | 'Z' :: rest | 'z' :: rest => some (0, rest)
    | c :: rest =>
      if c == '+' then (readHoursMinutes? rest).map fun r => ((r.1 : Int), r.2)
      else if c == '-' || c.toNat == 0x2212 then
        (readHoursMinutes? rest).map fun r => (-(r.1 : Int), r.2)
      else none
    | [] => none

def minutesPerDay : Int := 1440

def ofText? (text : String) : Option Timestamp := do
  let (year, s) ← readYear? text.toList
  let (month, s) ← readCount? 2 (← afterSign? '-' s)
  let (day, s) ← readCount? 2 (← afterSign? '-' s)
  let s ← match s with
    | 'T' :: rest | 't' :: rest | ' ' :: rest => some rest
    | _ => none
  let (hour, s) ← readCount? 2 s
  let (minute, s) ← readCount? 2 (← afterSign? ':' s)
  let (second, s) ← readCount? 2 (← afterSign? ':' s)
  let (nanosecond, s) ← readFraction? s
  let (offset, s) ← readOffset? (s.dropWhile isBlank)
  let date : Date := ⟨year, month, day⟩
  if !s.all isBlank || !date.isValid || 24 ≤ hour || 60 ≤ minute || 61 ≤ second then none
  else
    let here : Int := date.toDays * minutesPerDay + 60 * hour + minute
    let universal := here - offset
    if (Date.ofDays (universal / minutesPerDay)).isValid then
      some ⟨universal, second, nanosecond⟩
    else none

def padded (width n : Nat) : List Char :=
  let ds := Nat.toDigits 10 n
  List.replicate (width - ds.length) '0' ++ ds

/-- A year of four digits, with a sign if it needs more or is before the year zero. -/
def yearText (y : Int) : List Char :=
  if 0 ≤ y ∧ y ≤ 9999 then padded 4 y.toNat
  else (if y < 0 then '-' else '+') :: padded 4 y.natAbs

/-- A fraction of a second in thousandths, millionths or billionths, whichever are enough. -/
def fractionText (n : Nat) : List Char :=
  if n = 0 then []
  else if n % 1000000 = 0 then '.' :: padded 3 (n / 1000000)
  else if n % 1000 = 0 then '.' :: padded 6 (n / 1000)
  else '.' :: padded 9 n

/-- A point in time as a text in universal time. -/
def text (t : Timestamp) : String :=
  let date := Date.ofDays (t.minute / minutesPerDay)
  let minute := (t.minute % minutesPerDay).toNat
  String.ofList <|
    yearText date.year ++ '-' :: padded 2 date.month ++ '-' :: padded 2 date.day ++
    'T' :: padded 2 (minute / 60) ++ ':' :: padded 2 (minute % 60) ++ ':' :: padded 2 t.second ++
    fractionText t.nanosecond ++ ['Z']

end Timestamp

end WorkflowOperator
