import JvmSignature.Member
import JvmSignature.Signature.TypeVariables

/-!
# Parts of a signature

What a signature says before any of its types is known: the class, the member, its modifiers, and
its types by name. A type may be a type variable, which the parts list with what it stands for.

The readers of the four spellings of signatures all build parts by `Parts.ofTexts`, so dots at the
end of the last parameter always become a pair of brackets and mark the signature as varargs.
-/

namespace JvmSignature

/-- The parts of a signature. -/
structure Parts where
  className : Text
  memberName : Text
  modifier : AccessFlags
  paramTypes : List Text
  returnType : Text
  typeVariables : TypeVariables
  isVarargs : Bool
  deriving DecidableEq

/-- The name under which a class declares a member: a constructor bears the name of the class. -/
def declaredName (className name : Text) : Text :=
  if name = constructorName then className else name

namespace Parts

/-- The parts of a signature without modifiers and type variables. -/
def ofTexts (className memberName : Text) (paramTypes : List Text) (returnType : Text) : Parts where
  className := className
  memberName := declaredName className memberName
  modifier := 0
  paramTypes := paramTypes.map TypeText.varargsAsArray
  returnType := returnType
  typeVariables := Table.empty
  isVarargs := paramTypes.getLast?.any TypeText.isVarargs

end Parts

end JvmSignature
