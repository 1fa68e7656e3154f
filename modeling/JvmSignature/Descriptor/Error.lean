import JvmSignature.Primitive

/-!
# Faults of type texts

What a reader of descriptors and type names refuses, with the text that it refused.
-/

namespace JvmSignature

inductive DescriptorError where
  /-- No descriptor, or no list of descriptors, is spelled like this from here on. -/
  | invalidDescriptor (text : Text)
  /-- No type has this name. -/
  | invalidTypeName (text : Text)
  /-- No primitive type has this keyword. -/
  | unknownPrimitive (text : Text)
  deriving DecidableEq, Repr

/-- The fault in words. -/
def DescriptorError.message : DescriptorError → Text
  | invalidDescriptor text => "invalid descriptor: ".toList ++ text
  | invalidTypeName text => "invalid type name: ".toList ++ text
  | unknownPrimitive text => text ++ " is not a primitive type".toList

/-- The letter of a primitive type that is given by its keyword. -/
def Primitive.codeOfName (s : Text) : Except DescriptorError Char :=
  match ofName? s with
  | some p => .ok p.code
  | none => .error (.unknownPrimitive s)

end JvmSignature
