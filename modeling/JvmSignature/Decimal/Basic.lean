import JvmSignature.Text.Basic

/-!
# Decimal numbers

Numbers as people write them, `mantissa · 10 ^ exponent`, and the floating-point number nearest to
each.
-/

namespace JvmSignature

/-- The number `mantissa · 10 ^ exponent`, or its opposite. -/
structure Decimal where
  negative : Bool
  mantissa : Nat
  exponent : Int
  deriving DecidableEq, Repr

namespace Decimal

/-! ## Reading -/

/-- The value of a run of digits. -/
def natOfDigits (digits : Text) : Nat :=
  digits.foldl (fun n c => 10 * n + (c.toNat - '0'.toNat)) 0

/-- A sign at the start of a text, and what follows it. -/
def takeSign : Text → Bool × Text
  | '-' :: s => (true, s)
  | '+' :: s => (false, s)
  | s => (false, s)

/-- The exponent at the end of a number: nothing, or `e`, a sign and digits. -/
def exponent? : Text → Option Int
  | [] => some 0
  | c :: s =>
    if c = 'e' ∨ c = 'E' then
      let (negative, digits) := takeSign s
      if digits = [] ∨ !digits.all Char.isDigit then none
      else if negative then some (-(natOfDigits digits : Int)) else some (natOfDigits digits)
    else none

/-- A number: a sign, digits with a point in, before or behind them, and an exponent. -/
def ofText? (s : Text) : Option Decimal :=
  let (negative, s) := takeSign s
  let whole := s.takeWhile Char.isDigit
  let (fraction, rest) :=
    match s.dropWhile Char.isDigit with
    | '.' :: s => (s.takeWhile Char.isDigit, s.dropWhile Char.isDigit)
    | s => ([], s)
  if whole = [] ∧ fraction = [] then none
  else
    (exponent? rest).map fun e =>
      ⟨negative, natOfDigits (whole ++ fraction), e - fraction.length⟩

/-! ## The nearest floating-point number -/

/-- The number of decimal digits, none for zero. -/
def digitCount (n : Nat) : Nat := if n = 0 then 0 else (Nat.toDigits 10 n).length

/--
The double nearest to the number. Exponents that are out of every range are cut off first, so that
no power of ten is computed for them.
-/
def toFloat (d : Decimal) : Float :=
  let size : Int := digitCount d.mantissa + d.exponent
  let magnitude : Float :=
    if d.mantissa = 0 ∨ size < -400 then 0.0
    else if size > 400 then 1.0 / 0.0
    else Float.ofScientific d.mantissa (d.exponent < 0) d.exponent.natAbs
  if d.negative then -magnitude else magnitude

end Decimal

end JvmSignature
