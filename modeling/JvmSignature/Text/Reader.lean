import JvmSignature.Text.Basic

/-!
# Readers

A reader takes a value from the start of a text and answers what is left to read. The formats that
this library reads share the hexadecimal numbers of their escapes.
-/

namespace JvmSignature

/-- Takes a value from the start of a text, and answers it with the rest. -/
abbrev Reader (α : Type) := Text → Option (α × Text)

namespace Text

/-- The value of a hexadecimal digit. -/
def hexValue? (c : Char) : Option Nat :=
  if '0' ≤ c ∧ c ≤ '9' then some (c.toNat - '0'.toNat)
  else if 'a' ≤ c ∧ c ≤ 'f' then some (c.toNat - 'a'.toNat + 10)
  else if 'A' ≤ c ∧ c ≤ 'F' then some (c.toNat - 'A'.toNat + 10)
  else none

/-- The number that is written by the next `n` hexadecimal digits. -/
def hexNumber? (n : Nat) (s : Text) : Option (Nat × Text) :=
  if (s.take n).length < n then none
  else
    ((s.take n).foldlM (fun value c => (hexValue? c).map fun d => 16 * value + d) 0).map
      fun value => (value, s.drop n)

theorem length_hexNumber? {n value : Nat} {s rest : Text}
    (h : hexNumber? n s = some (value, rest)) : rest.length + n = s.length := by
  unfold hexNumber? at h
  split at h
  · cases h
  · next hn =>
    obtain ⟨_, _, he⟩ := Option.map_eq_some_iff.mp h
    cases he
    rw [List.length_take] at hn
    rw [List.length_drop]
    omega

end Text

end JvmSignature
