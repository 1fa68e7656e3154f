import JvmSignature.Decimal.Basic
import JvmSignature.Text.Blank

/-!
# Time stamps

A log stamps its lines in seconds, with a point or, where the locale has it so, a comma before the
fraction.
-/

namespace JvmSignature.Stamp

/--
A stamp in whole milliseconds, a half rounded up. The product is that of doubles, and what exceeds
64 bits is cut to the largest number of them. A text that is no number, a number below zero and one
that no double holds count as zero.
-/
def milliseconds (stamp : Text) : Nat :=
  match Decimal.ofText? (stamp.trim.map fun c => if c = ',' then '.' else c) with
  | none => 0
  | some d =>
    let seconds := d.toFloat
    if seconds.isFinite && seconds ≥ 0.0 then (seconds * 1000.0).round.toUInt64.toNat else 0

end JvmSignature.Stamp
