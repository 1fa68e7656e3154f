import JvmSignature.Method
import JvmSignature.Signature.Matching
import JvmSignature.Table
import JvmSignature.TypeSystem

/-!
# Class registries

The classes whose methods are at hand. A class is registered by its stub, in the place of an earlier
registration, or loaded by a class loader when a lookup first needs it; a class that is there is
never loaded again. The registry counts the classes that were loaded.
-/

namespace JvmSignature

/-- A fault of a lookup in a registry. -/
inductive RegistryError where
  | classNotFound (name : Text)
  deriving DecidableEq, Repr

/-- The fault in words. -/
def RegistryError.message : RegistryError → Text
  | classNotFound name => "class not found: ".toList ++ name

/-- The types and names by which a lookup asks for a method. -/
structure MethodQuery where
  className : Text
  memberName : Text
  params : List Descriptor
  returnType : Descriptor
  deriving DecidableEq, Repr

/-- Whether a method answers to a query. -/
def Method.answers (ts : TypeSystem) (mode : MatchMode) (q : MethodQuery) (m : Method) : Bool :=
  m.name = q.memberName && m.returnType = q.returnType &&
    ts.matchesParams m.isVarargs m.params q.params mode

/-- The registered classes with their methods, and the number of them that were loaded. -/
structure Registry where
  classes : Table Text (List Method)
  loads : Nat
  deriving DecidableEq

namespace Registry

/-- The registry without classes. -/
def empty : Registry := ⟨Table.empty, 0⟩

/-- The number of registered classes. -/
def size (r : Registry) : Nat := r.classes.size

/-- Whether a class is registered under a name. -/
def contains (r : Registry) (name : Text) : Bool := r.classes.contains name

/-- The registry with the class of a stub, in the place of an earlier class of that name. -/
def register (r : Registry) (stub : ClassStub) : Registry :=
  { r with classes := r.classes.insert stub.className stub.declared }

/--
The registry with the class of a name, which is loaded if it is not there; a class that cannot be
loaded is a fault and changes nothing.
-/
def load (r : Registry) (loader : ClassLoader) (name : Text) : Except RegistryError Registry :=
  if r.contains name then .ok r
  else
    match loader name with
    | none => .error (.classNotFound name)
    | some stub => .ok ⟨r.classes.insert name stub.declared, r.loads + 1⟩

/-- The methods of a registered class, in the order of their declaration; none of any other. -/
def methods (r : Registry) (className : Text) : List Method :=
  (r.classes.find? className).getD []

/-- The first method that answers to a query. -/
def find? (r : Registry) (ts : TypeSystem) (mode : MatchMode) (q : MethodQuery) : Option Method :=
  (r.methods q.className).find? (Method.answers ts mode q)

end Registry

end JvmSignature
