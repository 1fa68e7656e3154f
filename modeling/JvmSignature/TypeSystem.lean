import JvmSignature.ClassTable.Subtyping
import JvmSignature.Descriptor.Name

/-!
# Type systems

What a resolver asks about types: which type a name means, if the type is known at all, which types
are assignable to which, and what the components of an array are. A class table answers these
questions; a resolver works with any answers.
-/

namespace JvmSignature

/-- The answers to the questions of a resolver. -/
structure TypeSystem where
  /-- The type of a name, when it is known. -/
  resolve? : Text → Option Descriptor
  /-- Whether the first type is assignable to the second. -/
  isAssignable : Descriptor → Descriptor → Bool
  /-- The type of the components of an array type. -/
  component? : Descriptor → Option Descriptor := Descriptor.component?

/-- Where classes come from: the class of a name, when it can be loaded. -/
abbrev ClassLoader := Text → Option ClassStub

namespace ClassTable

/--
A type is known when its element is: a primitive type always, but `void` only by itself, and a
class when the table holds it.
-/
def knows (t : ClassTable) (d : Descriptor) : Bool :=
  match d.element with
  | .primitive .void => d.depth = 0
  | .primitive _ => true
  | .reference name => t.contains name

/-- The type of a name, when it is known. -/
def resolve? (t : ClassTable) (name : Text) : Option Descriptor :=
  match Descriptor.ofTypeName name with
  | .error _ => none
  | .ok d => if t.knows d then some d else none

/-- The answers of a class table. -/
def typeSystem (t : ClassTable) : TypeSystem where
  resolve? := t.resolve?
  isAssignable := t.isAssignable

/-- A class table as the place where classes come from. -/
def loader (t : ClassTable) : ClassLoader := t.stub?

end ClassTable

end JvmSignature
