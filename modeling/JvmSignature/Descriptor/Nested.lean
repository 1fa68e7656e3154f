import JvmSignature.Descriptor.Basic

/-!
# Nested array types

A descriptor is an element and a number of dimensions, so there is no array of arrays, and no array
without a dimension. Of the types here both could be made (`NestedType`): an array is an array of
any type, and its dimensions are counted in a machine word.

A type that is wrapped in dimensions takes them up itself if it is an array (`NestedType.wrap`), and
a component is one dimension less (`NestedType.component?`). The sum of the dimensions may run over
the word, and then it starts again at zero.

No text has more brackets than a word can count. So what is read is a descriptor, and the dimensions
of descriptors are counted without a bound.
-/

namespace JvmSignature

/-- A type whose arrays may be nested. -/
inductive NestedType where
  | plain (e : Element)
  | array (of : NestedType) (depth : UInt64)
  deriving DecidableEq, Repr

namespace NestedType

def void : NestedType := plain (.primitive .void)

/-! ## Arrays and components -/

/-- The type under `n` more array dimensions, which an array takes up itself. -/
def wrap (t : NestedType) (n : UInt64) : NestedType :=
  if n = 0 then t
  else
    match t with
    | array t depth => array t (depth + n)
    | plain e => array (plain e) n

def depth : NestedType → UInt64
  | plain _ => 0
  | array _ depth => depth

/-- What is left of a type without its array dimensions. -/
def inner : NestedType → NestedType
  | plain e => plain e
  | array t _ => t

/-- The type of the components of an array. -/
def component? : NestedType → Option NestedType
  | plain _ => none
  | array t depth => some (t.wrap (depth - 1))

def isArray : NestedType → Bool
  | plain _ => false
  | array _ _ => true

/-- A primitive type itself, no array of it. -/
def isPrimitive : NestedType → Bool
  | plain (.primitive _) => true
  | _ => false

/-! ## Texts -/

/-- The name in source texts. -/
def name : NestedType → Text
  | plain e => e.name
  | array t depth => t.name ++ Descriptor.brackets depth.toNat

/-- The name under which a type is looked up: an element's name, an array's encoding. -/
def binaryName : NestedType → Text
  | plain e => e.name
  | array (plain (.primitive p)) depth => List.replicate depth.toNat '[' ++ [p.code]
  | array t depth => List.replicate depth.toNat '[' ++ 'L' :: t.binaryName ++ [';']

/-- The descriptor of a type whose arrays are not nested. -/
def descriptor? : NestedType → Option Descriptor
  | plain e => some ⟨e, 0⟩
  | array (plain e) depth => some ⟨e, depth.toNat⟩
  | array (array _ _) _ => none

end NestedType

/-- A descriptor as a type whose arrays might be nested. -/
def Descriptor.nested (d : Descriptor) : NestedType :=
  (NestedType.plain d.element).wrap (UInt64.ofNat d.depth)

end JvmSignature
