import JvmSignature.Descriptor.Encoded
import JvmSignature.Text.Blank

/-!
# Reading type names

A type in a log may be written by its name (`int[][]`, `java.lang.String`), by the binary name of
an array (`[Ljava.lang.String;`) or with slashes (`java/lang/String`). Blanks may stand around the
name and before each pair of brackets.

A name with brackets is read from its end, where each pair of brackets is one more dimension of what
stands before it. Reading ends because a pair of brackets that is taken off leaves a shorter text.
-/

namespace JvmSignature

/-- Characters that are part of no type name. -/
def isNameDelimiter (c : Char) : Bool := isBlank c || "<>;[](),".toList.contains c

/-- The type of a name without brackets: a primitive type, or a class of any name. -/
def Descriptor.ofPlainName (name : Text) : Except DescriptorError Descriptor :=
  match Primitive.ofName? name with
  | some p => .ok (.primitive p)
  | none =>
    if name.any isNameDelimiter then .error (.invalidTypeName name) else .ok (.reference name)

theorem length_lt_of_dropWhile_eq {p : Char → Bool} {s rest : Text} {c d : Char}
    (h : s.dropWhile p = c :: d :: rest) : rest.length < s.length := by
  have hl := (List.dropWhile_suffix (l := s) p).length_le
  rw [h, List.length_cons, List.length_cons] at hl
  omega

/--
The type of a name that is given back to front: the pairs of brackets are what is read first. An
array of `void` is refused where the first pair of brackets follows `void`.
-/
def Descriptor.ofReversedName (s : Text) : Except DescriptorError Descriptor :=
  match _h : s.dropWhile isBlank with
  | ']' :: '[' :: base =>
    match Descriptor.ofReversedName base with
    | .error e => .error e
    | .ok d =>
      -- Only the innermost brackets can have `void` itself before them.
      if d = .primitive .void then .error (.invalidTypeName (']' :: '[' :: base).reverse)
      else .ok (d.array 1)
  | name => Descriptor.ofPlainName name.reverse
termination_by s.length
decreasing_by exact length_lt_of_dropWhile_eq _h

/-- The type of a name, which is the binary name of an array where a `[` starts it. -/
def Descriptor.ofTypeName (s : Text) : Except DescriptorError Descriptor :=
  match s.trim with
  | [] => .error (.invalidTypeName [])
  | '[' :: rest => Descriptor.ofField ('[' :: rest)
  | name => Descriptor.ofReversedName name.reverse

end JvmSignature
