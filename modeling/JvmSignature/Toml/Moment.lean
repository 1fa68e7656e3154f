import JvmSignature.Decimal.Basic
import JvmSignature.Toml.Lexical

/-!
# Dates and times of TOML

A moment is a date, a time of day, or both with or without the distance from universal time. Months,
days and times have to exist; a leap second may.
-/

namespace JvmSignature.Toml

/-- The next `n` digits, and their value. -/
def numberOf? (n : Nat) (s : Text) : Option (Nat × Text) :=
  let digits := s.take n
  if digits.length = n ∧ digits.all Char.isDigit then
    some (Decimal.natOfDigits digits, s.drop n)
  else none

/-- A number of `n` digits in a range. -/
def numberIn? (n least greatest : Nat) (s : Text) : Option (Nat × Text) :=
  (numberOf? n s).filter fun found => least ≤ found.1 ∧ found.1 ≤ greatest

/-- A character, and what follows it. -/
def after? (c : Char) : Text → Option Text
  | d :: s => if d = c then some s else none
  | [] => none

def isLeapYear (year : Nat) : Bool := year % 4 = 0 && (year % 100 != 0 || year % 400 = 0)

/-- The number of days of a month. -/
def daysIn (year month : Nat) : Nat :=
  if month = 2 then if isLeapYear year then 29 else 28
  else if [4, 6, 9, 11].contains month then 30
  else 31

/-- What follows a date. -/
def afterDate? (s : Text) : Option Text := do
  let (year, s) ← numberOf? 4 s
  let (month, s) ← numberIn? 2 1 12 (← after? '-' s)
  let (_, s) ← numberIn? 2 1 (daysIn year month) (← after? '-' s)
  return s

/-- What follows the fraction of a second, if there is one. -/
def skipFraction (s : Text) : Text :=
  match s with
  | '.' :: c :: rest => if c.isDigit then rest.dropWhile Char.isDigit else s
  | _ => s

/-- What follows a time of day. -/
def afterTime? (s : Text) : Option Text := do
  let (_, s) ← numberIn? 2 0 23 s
  let (_, s) ← numberIn? 2 0 59 (← after? ':' s)
  let (_, s) ← numberIn? 2 0 60 (← after? ':' s)
  return skipFraction s

/-- What follows a distance from universal time, if there is one. -/
def skipOffset (s : Text) : Text :=
  match s with
  | c :: rest =>
    if c = 'Z' ∨ c = 'z' then rest
    else if c = '+' ∨ c = '-' then
      let distance := do
        let (_, s) ← numberIn? 2 0 23 rest
        let (_, s) ← numberIn? 2 0 59 (← after? ':' s)
        return s
      distance.getD s
    else s
  | [] => []

/-- What follows the time of a date, if there is one. -/
def skipTimeOfDate (s : Text) : Text :=
  match s with
  | c :: rest =>
    if c = 'T' ∨ c = 't' ∨ c = ' ' then ((afterTime? rest).map skipOffset).getD s else s
  | [] => []

/-- What follows a moment. -/
def afterMoment? (s : Text) : Option Text :=
  match afterDate? s with
  | some rest => some (skipTimeOfDate rest)
  | none => afterTime? s

/-- A moment, as it is written. -/
def moment? (s : Text) : Option (Text × Text) :=
  (afterMoment? s).map fun rest => (s.take (s.length - rest.length), rest)

end JvmSignature.Toml
