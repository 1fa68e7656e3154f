import JvmSignature.Descriptor.Encoded
import JvmSignature.Signature.Error
import JvmSignature.Signature.TypeText
import JvmSignature.Text.TopLevel
import JvmSignature.TypeSystem

/-!
# Resolving types

The types of a signature become descriptors only when the type system knows them. A list of types
has two spellings, descriptors (`(I[Ljava/lang/String;)`) and names (`int, java.lang.String[],
T...`); a text that can be read as descriptors is.

Types are resolved from left to right, and the first that is not known is the fault.
-/

namespace JvmSignature.TypeSystem

/-- A type that was read from a descriptor. A primitive type is always known. -/
def resolveDescriptor (ts : TypeSystem) (d : Descriptor) : Except SignatureError Descriptor :=
  if d.isPrimitive then .ok d
  else
    match ts.resolve? d.binaryName with
    | some d => .ok d
    | none => .error (.unknownType d.name)

/-- A declared type such as `java.util.List<T>[]` or `int...`. -/
def resolveName (ts : TypeSystem) (token : Text) : Except SignatureError Descriptor :=
  match ts.resolve? (TypeText.lookupName token) with
  | some d => .ok d
  | none => .error (.unknownType token)

/-- Declared types separated by commas. -/
def resolveNames (ts : TypeSystem) (names : Text) : Except SignatureError (List Descriptor) :=
  (Text.splitTopLevel ',' names).mapM ts.resolveName

/-- A list of types in either spelling. -/
def resolveList (ts : TypeSystem) (s : Text) : Except SignatureError (List Descriptor) :=
  match Descriptor.ofList s.trim with
  | .ok types => types.mapM ts.resolveDescriptor
  | .error _ => ts.resolveNames s.trim.unparenthesized

end JvmSignature.TypeSystem
