import JvmSignature.Decimal.Basic

/-!
# Shortest decimals

The fewest decimal digits that read back as a given double, and their two notations. A double is
`m · 2 ^ q`; the numbers that read back as it fill an interval around it, whose ends belong to it
when `m` is even. For one digit, two digits and so on the two numbers of that many digits next to
the double are tried; seventeen digits always suffice. Of two that read back the nearer is taken,
and where both are as near a notation decides.
-/

namespace JvmSignature.Decimal

/-- A positive binary number `m · 2 ^ q` and whether the gap below it is half the gap above. -/
structure Binary where
  m : Nat
  q : Int
  atPowerOfTwo : Bool

/-- The magnitude of a finite double. -/
def binaryOfBits (bits : UInt64) : Binary :=
  let fraction : Nat := bits.toNat % 0x10000000000000
  let exponent : Nat := bits.toNat / 0x10000000000000 % 0x800
  if exponent = 0 then ⟨fraction, -1074, false⟩
  else ⟨0x10000000000000 + fraction, (exponent : Int) - 1075, fraction = 0 ∧ exponent > 1⟩

/-- The number `n · 2 ^ p · 10 ^ g`, without the powers whose exponents are below zero. -/
def scaled (n : Nat) (p g : Int) : Nat := n * Nat.pow 2 p.toNat * Nat.pow 10 g.toNat

/-- Whether `x · 2 ^ p ≤ d · 10 ^ g`: the powers below zero stand on the other side. -/
def leDecimal (x : Nat) (p : Int) (d : Nat) (g : Int) : Bool :=
  scaled x p (-g) ≤ scaled d (-p) g

/-- Whether `d · 10 ^ g ≤ x · 2 ^ p`. -/
def decimalLe (d : Nat) (g : Int) (x : Nat) (p : Int) : Bool :=
  scaled d (-p) g ≤ scaled x p (-g)

/-- Whether `d · 10 ^ g` reads back as the number. -/
def Binary.isNearest (b : Binary) (d : Nat) (g : Int) : Bool :=
  -- In quarters of the last place the middle between two neighbours is a whole number.
  let low := 4 * b.m - (if b.atPowerOfTwo then 1 else 2)
  let high := 4 * b.m + 2
  if b.m % 2 = 0 then leDecimal low (b.q - 2) d g && decimalLe d g high (b.q - 2)
  else !decimalLe d g low (b.q - 2) && !leDecimal high (b.q - 2) d g

/-- The largest `d` with `d · 10 ^ g ≤ m · 2 ^ q`. -/
def Binary.floorAt (b : Binary) (g : Int) : Nat :=
  scaled b.m b.q (-g) / scaled 1 (-b.q) g

/-- The exponent `k` with `10 ^ (k - 1) ≤ m · 2 ^ q < 10 ^ k`, for the magnitudes of doubles. -/
def Binary.decimalExponent (b : Binary) : Int := digitCount (b.floorAt (-400)) - 400

/-- Which of two decimals is taken that are as near to a number. -/
inductive Tie where
  | up
  | toEven
  deriving DecidableEq, Repr

/-- Whether the number is nearer to `(d + 1) · 10 ^ g` than to `d · 10 ^ g`, with ties decided. -/
def Binary.isUpper (b : Binary) (tie : Tie) (d : Nat) (g : Int) : Bool :=
  if tie = .toEven ∧ d % 2 = 0 then !leDecimal (2 * b.m) b.q (2 * d + 1) g
  else decimalLe (2 * d + 1) g (2 * b.m) b.q

/-- A number on the grid of `10 ^ g` that reads back as the number, the nearer of two. -/
def Binary.onGrid? (b : Binary) (tie : Tie) (g : Int) : Option Nat :=
  let d := b.floorAt g
  match b.isNearest d g, b.isNearest (d + 1) g with
  | true, true => some (if b.isUpper tie d g then d + 1 else d)
  | true, false => some d
  | false, true => some (d + 1)
  | false, false => none

/-- The digits without zeros at the end, and the exponent that goes with them. -/
def withoutTrailingZeros : (fuel : Nat) → Nat → Int → Nat × Int
  | 0, d, g => (d, g)
  | fuel + 1, d, g => if d % 10 = 0 then withoutTrailingZeros fuel (d / 10) (g + 1) else (d, g)

/-- The digits, as a number, and the exponent of the shortest decimal of a positive number. -/
def Binary.shortest (b : Binary) (tie : Tie) : Nat × Int :=
  let k := b.decimalExponent
  let found := (List.range 17).findSome? fun n =>
    (b.onGrid? tie (k - (n + 1 : Nat))).map fun d => (d, k - (n + 1 : Nat))
  match found with
  | some (d, g) => withoutTrailingZeros 17 d g
  | none => (b.floorAt (k - 17), k - 17)

/-! ## Notations -/

/-- Digits with the point at `point` places from their start, a digit on either side of it. -/
def positional (digits : Text) (point : Int) : Text :=
  if point ≤ 0 then "0.".toList ++ List.replicate (-point).toNat '0' ++ digits
  else if (digits.length : Int) ≤ point then
    digits ++ List.replicate (point.toNat - digits.length) '0' ++ ".0".toList
  else digits.take point.toNat ++ '.' :: digits.drop point.toNat

/-- The exponent of a power of ten, with its sign. -/
def signedExponent (e : Int) : Text := (if e < 0 then [] else ['+']) ++ (toString e).toList

/-- Digits with the point behind the first of them, and a power of ten. -/
def scientific (digits : Text) (point : Int) : Text :=
  let exponent := signedExponent (point - 1)
  match digits with
  | [] => []
  | [d] => d :: 'e' :: exponent
  | d :: ds => d :: '.' :: ds ++ 'e' :: exponent

/-- The text of a double, by the notation of its shortest digits and the place of the point. -/
def floatText (tie : Tie) (layout : Text → Int → Text) (x : Float) : Text :=
  if x.isNaN then "NaN".toList
  else
    let sign : Text := if x.toBits ≥ 0x8000000000000000 then ['-'] else []
    if x.isInf then sign ++ "inf".toList
    else
      let b := binaryOfBits x.toBits
      if b.m = 0 then sign ++ "0.0".toList
      else
        let (d, g) := b.shortest tie
        let digits := Nat.toDigits 10 d
        sign ++ layout digits (digits.length + g)

/-- All places written out; a tie goes up. -/
def plainText : Float → Text := floatText .up positional

/--
Powers of ten for numbers from `10 ^ 16` on and below `10 ^ -5`, else all places written out; a tie
goes to the even digit.
-/
def compactText : Float → Text :=
  floatText .toEven fun digits point =>
    if -5 < point ∧ point ≤ 16 then positional digits point else scientific digits point

end JvmSignature.Decimal
