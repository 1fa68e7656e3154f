import JvmSignature.Data.Datum
import JvmSignature.Decimal.Basic
import JvmSignature.Text.Reader

/-!
# Numbers of JSON

A number without a fraction and without a power of ten is an integer, if it fits in 64 bits and is
not `-0`. Any other number is a double: its digits, as far as they fit in 64 bits, and the power of
ten that goes with them are rounded to doubles, and then the one is multiplied or divided by the
other. Long numbers may so miss the nearest double in the last place. A number too large for a
double is no number.
-/

namespace JvmSignature.Json

/-! ## Spelling -/

/-- A number as it is written. -/
structure Numeral where
  negative : Bool
  whole : Text
  fraction? : Option Text
  exponent? : Option Int
  deriving DecidableEq, Repr

/-- A run of digits. -/
def digits? (s : Text) : Option (Text × Text) :=
  match s.takeWhile Char.isDigit with
  | [] => none
  | digits => some (digits, s.dropWhile Char.isDigit)

/-- The digits before the point: a zero alone, or a run that does not start with one. -/
def whole? : Reader Text
  | '0' :: s => some (['0'], s)
  | s => digits? s

/-- The digits behind the point, if there is one. -/
def fraction? : Reader (Option Text)
  | '.' :: s => (digits? s).map fun (digits, rest) => (some digits, rest)
  | s => some (none, s)

/-- The power of ten, if there is one. -/
def exponent? : Reader (Option Int)
  | [] => some (none, [])
  | c :: s =>
    if c = 'e' ∨ c = 'E' then
      let (negative, s) := Decimal.takeSign s
      (digits? s).map fun (digits, rest) =>
        let n : Int := Decimal.natOfDigits digits
        (some (if negative then -n else n), rest)
    else some (none, c :: s)

/-- A minus sign at the start of a number, and what follows it. -/
def takeMinus : Text → Bool × Text
  | '-' :: s => (true, s)
  | s => (false, s)

/-- A number at the start of a text, as it is written. -/
def numeral? (s : Text) : Option (Numeral × Text) := do
  let (negative, s) := takeMinus s
  let (whole, s) ← whole? s
  let (fraction, s) ← fraction? s
  let (exponent, s) ← exponent? s
  return (⟨negative, whole, fraction, exponent⟩, s)

/-! ## Value -/

/-- Numbers of 64 bits are less than this. -/
def wordLimit : Nat := 0x10000000000000000

/--
The number of `n` with digits behind it, up to the first digit with which it would exceed 64 bits,
and how many digits are then left.
-/
def takeDigits : (n : Nat) → Text → Nat × Nat
  | n, [] => (n, 0)
  | n, c :: digits =>
    let next := 10 * n + (c.toNat - '0'.toNat)
    if next < wordLimit then takeDigits next digits else (n, digits.length + 1)

/-- The double nearest to `10 ^ n`. -/
def powerOfTen (n : Nat) : Float := Float.ofScientific 1 false n

/--
The double `x` times `10 ^ e`, if there is one. Beyond `10 ^ 308` no power of ten is a double, so a
division by more is done in two steps.
-/
def scale? (x : Float) (e : Int) : Option Float :=
  if 308 < e then if x == 0.0 then some x else none
  else if 0 ≤ e then
    let y := x * powerOfTen e.toNat
    if y.isInf then none else some y
  else if -308 ≤ e then some (x / powerOfTen (-e).toNat)
  else if -616 ≤ e then some (x / powerOfTen 308 / powerOfTen (-e - 308).toNat)
  else some 0.0

namespace Numeral

/-- The value as a double. -/
def float? (n : Numeral) : Option Float :=
  let fraction := n.fraction?.getD []
  let (significand, dropped) := takeDigits 0 n.whole
  let (significand, left) := takeDigits significand fraction
  let places : Int := fraction.length - left
  let magnitude? := scale? (Float.ofScientific significand false 0)
    (n.exponent?.getD 0 + dropped - places)
  magnitude?.map fun x => if n.negative then -x else x

/-- The value as an integer. -/
def integer? (n : Numeral) : Option Int :=
  if n.fraction? = none ∧ n.exponent? = none then
    let m := Decimal.natOfDigits n.whole
    if n.negative then if 0 < m ∧ m ≤ 0x8000000000000000 then some (-(m : Int)) else none
    else if m < wordLimit then some m
    else none
  else none

/-- The value: an integer where it is one, else a double. -/
def datum? (n : Numeral) : Option Datum :=
  match n.integer? with
  | some i => some (.integer i)
  | none => n.float?.map .float

end Numeral

/-- A number at the start of a text. -/
def number? (s : Text) : Option (Datum × Text) :=
  (numeral? s).bind fun (n, rest) => n.datum?.map fun d => (d, rest)

end JvmSignature.Json
