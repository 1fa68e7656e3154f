import JvmSignature.Primitive
import JvmSignature.Text.Blank

/-!
# Types as declarations write them

A declaration writes a type by its name, with type arguments (`java.util.List<T>[]`), and the last
parameter of a varargs method with dots (`int...`) for its last pair of brackets. A type is looked
up under the name that its class file would have for it.
-/

namespace JvmSignature.TypeText

/-- The type without its arguments, which reach from the first `<` to the last `>` behind it. -/
def withoutArguments (s : Text) : Text :=
  match s.cutAt? '<' with
  | none => s
  | some (before, rest) =>
    match rest.cutAtLast? '>' with
    | none => s
    | some (_, after) => before ++ after

/-- The number of pairs of brackets. -/
def bracketCount : Text → Nat
  | '[' :: ']' :: s => bracketCount s + 1
  | _ :: s => bracketCount s
  | [] => 0

/-- The text up to its first pair of brackets. -/
def beforeBrackets : Text → Text
  | '[' :: ']' :: _ => []
  | c :: s => c :: beforeBrackets s
  | [] => []

/-- The text from its first pair of brackets on. -/
def fromBrackets : Text → Text
  | '[' :: ']' :: s => '[' :: ']' :: s
  | _ :: s => fromBrackets s
  | [] => []

theorem beforeBrackets_append_fromBrackets (s : Text) :
    beforeBrackets s ++ fromBrackets s = s := by
  fun_induction beforeBrackets s <;> simp_all [fromBrackets]

/-- The component of a type written with dots at its end. -/
def varargsComponent? (s : Text) : Option Text := "...".toList.isSuffixOf? s

/-- Whether a type is written with dots at its end. -/
def isVarargs (s : Text) : Bool := (varargsComponent? s).isSome

/-- The type with brackets for dots at its end. -/
def varargsAsArray (s : Text) : Text :=
  match varargsComponent? s with
  | some component => component ++ "[]".toList
  | none => s

/-! ## Looking types up -/

/-- The encoding of an element that is given by its name, with dots or slashes. -/
def encodedElement (name : Text) : Text :=
  match Primitive.ofName? name with
  | some p => [p.code]
  | none => 'L' :: name ++ [';']

/-- The name under which an element under `depth` array dimensions is looked up. -/
def arrayLookup (depth : Nat) (element : Text) : Text :=
  if depth = 0 then element else List.replicate depth '[' ++ encodedElement element

/--
The name under which a declared type is looked up: its type arguments do not count, and dots at its
end are one more array dimension.
-/
def lookupName (token : Text) : Text :=
  let stripped := withoutArguments token.trim
  let base := (varargsComponent? stripped).getD stripped
  let depth := bracketCount base + (if isVarargs stripped then 1 else 0)
  arrayLookup depth (Text.trim (beforeBrackets base))

end JvmSignature.TypeText
