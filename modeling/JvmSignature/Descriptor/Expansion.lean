import JvmSignature.Descriptor.Basic

/-!
# Expanding encoded types

Logs and dictionaries name a type by its encoding or by its name, without saying which. Expansion
turns an encoding into the name and leaves a name as it is. It is a guess from the first and the
last character, never a fault: what is neither is kept.
-/

namespace JvmSignature.Descriptor

/-- The brackets of array dimensions, and semicolons, which mean nothing before a type. -/
def isExpansionMark (c : Char) : Bool := c == '[' || c == ';'

/--
The name of an encoded element. A letter counts as the letter of a primitive type only where
nothing follows it, and `L` as the start of a class name only where a `;` ends the text.
-/
def expandElement (s : Text) : Text :=
  match s with
  | [] => []
  | [c] =>
    match Primitive.ofCode? c with
    | some p => p.name
    | none => [c]
  | c :: rest => if c = 'L' ∧ rest.getLast? = some ';' then rest.dropLast else c :: rest

/-- The name of an encoded type, and any other text as it is. -/
def expand (token : Text) : Text :=
  expandElement (token.dropWhile isExpansionMark) ++
    brackets ((token.takeWhile isExpansionMark).count '[')

end JvmSignature.Descriptor
