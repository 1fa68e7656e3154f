import JvmSignature.ClassStub
import JvmSignature.Descriptor.Encoded
import JvmSignature.Member

/-!
# Declared methods

The methods of a class stub with their descriptors read. A method whose descriptor cannot be read is
left out, and so is the initializer of the class, which no signature names.
-/

namespace JvmSignature

/-- A method of a class, with its types. -/
structure Method where
  className : Text
  name : Text
  modifier : AccessFlags
  params : List Descriptor
  returnType : Descriptor
  isVarargs : Bool
  deriving DecidableEq

namespace Method

/-- The method as a program prints it. -/
def member (m : Method) : Member where
  className := m.className
  name := m.name
  modifier := m.modifier
  paramTypes := m.params.map Descriptor.name
  returnType := m.returnType.name
  isVarargs := m.isVarargs

end Method

/-- The name of class initializers in class files. -/
def initializerName : Text := "<clinit>".toList

/-- The method that a stub declares in a class, if a signature can name it. -/
def MethodStub.method? (className : Text) (stub : MethodStub) : Option Method :=
  if stub.name = initializerName then none
  else
    match MethodDescriptor.ofText stub.descriptor with
    | .error _ => none
    | .ok m =>
      some
        { className := className
          name := if stub.name = constructorName then className else stub.name
          modifier := stub.accessFlags &&& AccessFlags.modifiers
          params := m.params
          returnType := m.returnType
          isVarargs := stub.accessFlags.has .varargsFlag }

namespace ClassStub

/-- The name of a class with dots. -/
def className (stub : ClassStub) : Text := stub.binaryName.dotted

/-- The methods of a class that signatures can name, in the order of their declaration. -/
def declared (stub : ClassStub) : List Method :=
  stub.methods.filterMap (MethodStub.method? stub.className)

end ClassStub

end JvmSignature
