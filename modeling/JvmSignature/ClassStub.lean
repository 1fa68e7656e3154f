import JvmSignature.AccessFlags

/-!
# Class stubs

What is known of a class before any of its descriptors is read: its name, its flags, the names of
its supertypes and its methods as they are declared.
-/

namespace JvmSignature

/-- A method as its class declares it. -/
structure MethodStub where
  name : Text
  descriptor : Text
  accessFlags : AccessFlags
  deriving DecidableEq

/-- A class or interface with the methods that it declares itself. -/
structure ClassStub where
  binaryName : Text
  accessFlags : AccessFlags
  superName? : Option Text
  interfaces : List Text
  methods : List MethodStub
  deriving DecidableEq

/-- The names of the direct supertypes. -/
def ClassStub.supertypes (stub : ClassStub) : List Text := stub.superName?.toList ++ stub.interfaces

end JvmSignature
