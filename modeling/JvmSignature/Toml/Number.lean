import JvmSignature.Data.Datum
import JvmSignature.Decimal.Basic
import JvmSignature.Toml.Quoted

/-!
# Numbers of TOML

Integers of 64 bits in four bases, and floating-point numbers. A `_` may stand between two digits
and does not count; a decimal number does not start with a zero unless it is one digit. A number too
large for a double is no number, but one too far below zero is read as infinite.
-/

namespace JvmSignature.Toml

/-! ## Digits -/

/-- The digits that go on behind a digit, without the underscores between them. -/
def moreDigits (isDigit : Char → Bool) : Text → Text × Text
  | '_' :: c :: s =>
    if isDigit c then
      let (digits, rest) := moreDigits isDigit s
      (c :: digits, rest)
    else ([], '_' :: c :: s)
  | c :: s =>
    if isDigit c then
      let (digits, rest) := moreDigits isDigit s
      (c :: digits, rest)
    else ([], c :: s)
  | [] => ([], [])

/-- A run of digits. -/
def digits? (isDigit : Char → Bool) : Reader Text
  | c :: s =>
    if isDigit c then
      let (digits, rest) := moreDigits isDigit s
      some (c :: digits, rest)
    else none
  | [] => none

/-- The digits of a whole decimal number: a zero alone, or a run that does not start with one. -/
def wholeDigits? : Reader Text
  | '0' :: s => some (['0'], s)
  | s => digits? Char.isDigit s

/-! ## Integers -/

/-- Integers are less than this, and not less than its opposite: they have 64 bits. -/
def integerLimit : Nat := 0x8000000000000000

/-- The value of digits in a base. -/
def valueInBase (base : Nat) (digits : Text) : Nat :=
  digits.foldl (fun n c => base * n + (Text.hexValue? c).getD 0) 0

/-- An integer that is read behind the mark of its base. -/
def basedInteger? (base : Nat) (isDigit : Char → Bool) (s : Text) : Option (Int × Text) :=
  match digits? isDigit s with
  | none => none
  | some (digits, rest) =>
    let n := valueInBase base digits
    if n < integerLimit then some (n, rest) else none

/-- An integer in the decimal system, with or without a sign. -/
def decimalInteger? (s : Text) : Option (Int × Text) :=
  let (negative, s) := Decimal.takeSign s
  match wholeDigits? s with
  | none => none
  | some (digits, rest) =>
    let n := Decimal.natOfDigits digits
    if negative then if n ≤ integerLimit then some (-(n : Int), rest) else none
    else if n < integerLimit then some (n, rest)
    else none

def integer? : Reader Int
  | '0' :: 'x' :: s => basedInteger? 16 (fun c => (Text.hexValue? c).isSome) s
  | '0' :: 'o' :: s => basedInteger? 8 (fun c => '0' ≤ c && c ≤ '7') s
  | '0' :: 'b' :: s => basedInteger? 2 (fun c => c == '0' || c == '1') s
  | s => decimalInteger? s

/-! ## Floating-point numbers -/

/-- The digits behind the point of a number. -/
def fraction? : Reader Text
  | '.' :: s => digits? Char.isDigit s
  | _ => none

/-- The power of ten of a number. -/
def power? : Reader Int
  | c :: s =>
    if c = 'e' ∨ c = 'E' then
      let (negative, s) := Decimal.takeSign s
      (digits? Char.isDigit s).map fun (digits, rest) =>
        let n : Int := Decimal.natOfDigits digits
        (if negative then -n else n, rest)
    else none
  | [] => none

/-- A number with a fraction, a power of ten or both. -/
def decimal? (s : Text) : Option (Decimal × Text) :=
  let (negative, s) := Decimal.takeSign s
  match wholeDigits? s with
  | none => none
  | some (whole, rest) =>
    match fraction? rest with
    | some (fraction, rest) =>
      let (power, rest) := (power? rest).getD (0, rest)
      some (⟨negative, Decimal.natOfDigits (whole ++ fraction), power - fraction.length⟩, rest)
    | none =>
      (power? rest).map fun (power, rest) => (⟨negative, Decimal.natOfDigits whole, power⟩, rest)

/-- Infinity or what is no number, with or without a sign. -/
def special? (s : Text) : Option (Float × Text) :=
  let (negative, s) := Decimal.takeSign s
  let signed (x : Float) : Float := if negative then -x else x
  match s with
  | 'i' :: 'n' :: 'f' :: rest => some (signed (1.0 / 0.0), rest)
  | 'n' :: 'a' :: 'n' :: rest => some (signed (0.0 / 0.0), rest)
  | _ => none

def float? (s : Text) : Option (Float × Text) :=
  match decimal? s with
  | some (d, rest) =>
    let x := d.toFloat
    -- Only an overflow above zero is a fault.
    if x.isInf && !d.negative then none else some (x, rest)
  | none => special? s

/-- A number of either kind. -/
def number? (s : Text) : Option (Datum × Text) :=
  match float? s with
  | some (x, rest) => some (.float x, rest)
  | none => (integer? s).map fun (n, rest) => (.integer n, rest)

end JvmSignature.Toml
