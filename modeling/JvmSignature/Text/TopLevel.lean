import JvmSignature.Text.Blank

/-!
# Splitting outside angle brackets

A list of types is separated by commas, but `java.util.Map<K, V>` is one type: a separator counts
only where every `<` before it has been closed. A `>` that closes nothing is an ordinary character.
-/

namespace JvmSignature.Text

/-- The number of open angle brackets after a character. -/
def angleDepth (depth : Nat) (c : Char) : Nat :=
  if c = '<' then depth + 1 else if c = '>' then depth - 1 else depth

/--
The text up to the first separator at depth zero, and the pieces after it. The angle brackets
themselves never separate.
-/
def piecesAt (sep : Char) : (depth : Nat) → Text → Text × List Text
  | _, [] => ([], [])
  | depth, c :: s =>
    let (piece, pieces) := piecesAt sep (angleDepth depth c) s
    if c = sep ∧ depth = 0 ∧ c ≠ '<' ∧ c ≠ '>' then ([], piece :: pieces)
    else (c :: piece, pieces)

/-- The pieces between top-level separators, trimmed, without the empty ones. -/
def splitTopLevel (sep : Char) (s : Text) : List Text :=
  let (piece, pieces) := piecesAt sep 0 s
  ((piece :: pieces).map trim).filter (· ≠ [])

/-- No piece of a top-level split is empty. -/
theorem ne_nil_of_mem_splitTopLevel {sep : Char} {s p : Text} (h : p ∈ splitTopLevel sep s) :
    p ≠ [] := by
  simpa using (List.mem_filter.mp h).2

end JvmSignature.Text
