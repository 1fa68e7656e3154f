import JvmSignature.Descriptor.Error

/-!
# Faults of signatures

Why a signature names no member. That no class or no member answers to a signature is no fault: such
a search finds nothing.
-/

namespace JvmSignature

inductive SignatureError where
  /-- The line does not have the shape of a signature. -/
  | malformed (line : Text)
  /-- The signature names a type that is not known. -/
  | unknownType (token : Text)
  /-- A descriptor in the signature cannot be read. -/
  | descriptor (fault : DescriptorError)
  deriving DecidableEq, Repr

/-- The fault in words. -/
def SignatureError.message : SignatureError → Text
  | malformed line => "could not parse signature: '".toList ++ line ++ ['\'']
  | unknownType token => "could not resolve type '".toList ++ token ++ ['\'']
  | descriptor fault => fault.message

end JvmSignature
