import JvmSignature.AccessFlags

/-!
# Members

A method as a program prints it, with every type written by its name. A constructor bears the name
of its class.
-/

namespace JvmSignature

/-- The name of constructors in class files. -/
def constructorName : Text := "<init>".toList

/-- A declared method, with its types by name. -/
structure Member where
  className : Text
  name : Text
  modifier : AccessFlags
  paramTypes : List Text
  returnType : Text
  isVarargs : Bool
  deriving DecidableEq

namespace Member

/-- Whether the member is named like its class. -/
def isConstructor (m : Member) : Bool := m.name = m.className

/-- The parameter that takes any number of arguments, with dots for its last pair of brackets. -/
def varargsText (type : Text) : Text :=
  match "[]".toList.isSuffixOf? type with
  | some component => component ++ "...".toList
  | none => type

/-- The parameters as a declaration writes them. -/
def paramTexts (m : Member) : List Text :=
  if m.isVarargs then
    m.paramTypes.dropLast ++ m.paramTypes.getLast?.toList.map varargsText
  else m.paramTypes

/-- What stands before the parameters: of a constructor the name alone. -/
def headText (m : Member) : Text :=
  if m.isConstructor then m.name
  else m.returnType ++ ' ' :: m.className ++ '.' :: m.name

/-- The declaration of a member. -/
def declaration (m : Member) : Text :=
  let keywords := m.modifier.toKeywords
  (if keywords = [] then [] else keywords ++ [' ']) ++
    m.headText ++ '(' :: ", ".toList.intercalate m.paramTexts ++ [')']

end Member

end JvmSignature
