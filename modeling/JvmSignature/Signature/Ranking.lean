import JvmSignature.Signature.Declaration

/-!
# Ranking declarations

Which of several declarations is that of a known member. A line counts only when it names the member
and agrees with it on name, modifiers and number of parameters; its score is the number of
parameters that agree, and one more when the return types do. Of the lines with the highest score
the first wins.
-/

namespace JvmSignature

/-- A line, by its place among the lines, and its score; a score of 0 means that no line counts. -/
structure BestLine where
  index : Nat
  score : Nat
  deriving DecidableEq, Repr

namespace BestLine

/-- Whether any line counts. -/
def isMatch (b : BestLine) : Bool := b.score > 0

/-- The better of two lines, the earlier one when they are equal. -/
def better (best candidate : BestLine) : BestLine :=
  if candidate.score > best.score then candidate else best

end BestLine

namespace Member

/-- The number of types in which a declaration agrees with the member. -/
def agreement (m : Member) (parts : Parts) : Nat :=
  (m.paramTypes.zip parts.paramTypes).countP (fun (known, declared) =>
      parts.typeVariables.agree known declared) +
    if parts.typeVariables.agree m.returnType parts.returnType then 1 else 0

/-- The score of the parts of a declaration. -/
def partsScore (m : Member) (parts : Parts) : Nat :=
  if parts.memberName = m.name ∧ parts.modifier = m.modifier ∧
      parts.paramTypes.length = m.paramTypes.length then m.agreement parts
  else 0

/-- The score of a declaration; one that cannot be read has none. -/
def declarationScore (m : Member) (line : Text) : Nat :=
  match Declaration.parts? m.className line with
  | some parts => m.partsScore parts
  | none => 0

/-- The score of a line; one that does not hold the name of the member is not read. -/
def lineScore (m : Member) (line : Text) : Nat :=
  if m.name.occursIn line then m.declarationScore line else 0

/-- The best of the lines from the place `index` on, and of what was found before them. -/
def bestFrom (m : Member) : (index : Nat) → BestLine → List Text → BestLine
  | _, best, [] => best
  | index, best, line :: lines =>
    m.bestFrom (index + 1) (best.better ⟨index, m.lineScore line⟩) lines

/-- The best of the lines. -/
def bestLine (m : Member) (lines : List Text) : BestLine := m.bestFrom 0 ⟨0, 0⟩ lines

/-- The text of the best line, if any line counts. -/
def bestLineText? (m : Member) (lines : List Text) : Option Text :=
  let best := m.bestLine lines
  if best.isMatch then lines[best.index]? else none

end Member

end JvmSignature
