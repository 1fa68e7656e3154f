import JvmSignature.Primitive

/-!
# Type descriptors

A type of the Java virtual machine: an element type, which is no array, under a number of array
dimensions. An array of arrays has no form of its own, so two descriptors are equal exactly when
they mean the same type.

A type has three texts. Its *name* is that of source texts (`int[][]`, `java.lang.String`), its
*encoding* that of class files with dots for slashes (`[[I`, `Ljava.lang.String;`), and its *binary
name*, under which classes are looked up, is the name of an element and the encoding of an array.
-/

namespace JvmSignature

/-- A type that is no array. -/
inductive Element where
  | primitive (p : Primitive)
  /-- A class or interface, by its name with dots. -/
  | reference (name : Text)
  deriving DecidableEq, Repr

/-- A type: an element under `depth` array dimensions. -/
structure Descriptor where
  element : Element
  depth : Nat
  deriving DecidableEq, Repr

/-- The parameter types and the return type of a method. -/
structure MethodDescriptor where
  params : List Descriptor
  returnType : Descriptor
  deriving DecidableEq, Repr

/-! ## Texts of an element -/

namespace Element

/-- The class or interface of a name, whose slashes are read as dots. -/
def ofName (name : Text) : Element := reference name.dotted

/-- The keyword of a primitive type, the name of a class. -/
def name : Element → Text
  | primitive p => p.name
  | reference n => n

/-- The letter of a primitive type, the name of a class between `L` and `;`. -/
def encode : Element → Text
  | primitive p => [p.code]
  | reference n => 'L' :: n ++ [';']

end Element

namespace Descriptor

/-! ## Building and taking apart -/

def primitive (p : Primitive) : Descriptor := ⟨.primitive p, 0⟩

/-- The class or interface of a name, whose slashes are read as dots. -/
def reference (name : Text) : Descriptor := ⟨.ofName name, 0⟩

/-- The type under `n` more array dimensions. They are counted without a bound, as each of them
stands in a text that is read. -/
def array (d : Descriptor) (n : Nat) : Descriptor := ⟨d.element, d.depth + n⟩

/-- The type of the components of an array. -/
def component? (d : Descriptor) : Option Descriptor :=
  match d.depth with
  | 0 => none
  | n + 1 => some ⟨d.element, n⟩

def isArray (d : Descriptor) : Bool := d.depth != 0

/-- A primitive type itself, no array of it. -/
def isPrimitive (d : Descriptor) : Bool :=
  match d with
  | ⟨.primitive _, 0⟩ => true
  | _ => false

/-! ## Texts -/

/-- The brackets of `n` array dimensions after a name. -/
def brackets : Nat → Text
  | 0 => []
  | n + 1 => '[' :: ']' :: brackets n

/-- The name in source texts. -/
def name (d : Descriptor) : Text := d.element.name ++ brackets d.depth

/-- The encoding, with dots for slashes: a `[` for each dimension, then the element. -/
def encode (d : Descriptor) : Text := List.replicate d.depth '[' ++ d.element.encode

/-- The name under which a type is looked up: an element's name, an array's encoding. -/
def binaryName (d : Descriptor) : Text := if d.depth = 0 then d.element.name else d.encode

end Descriptor

end JvmSignature
