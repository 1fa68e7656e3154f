import JvmSignature.Descriptor.Encoded
import JvmSignature.Signature.Error
import JvmSignature.Signature.Parts
import JvmSignature.Text.Blank

/-!
# Disassembler comments

A disassembler explains an instruction by a comment that names the member it refers to, such as
`java/util/ArrayList."<init>":()V`: the class, a dot, the member, which may be quoted, a colon and
the method descriptor.
-/

namespace JvmSignature

/-- The text without the quotes at its ends. -/
def Text.unquoted (s : Text) : Text :=
  ((s.dropWhile (· == '"')).reverse.dropWhile (· == '"')).reverse

/-- The parts that a method descriptor and the names before it spell. -/
def Parts.ofDescriptor (className memberName : Text) (m : MethodDescriptor) : Parts :=
  { Parts.ofTexts className memberName [] m.returnType.name with
    paramTypes := m.params.map Descriptor.name }

/-- The parts of a comment. -/
def Parts.ofComment (comment : Text) : Except SignatureError Parts :=
  match comment.trim.cutAt? ':' with
  | none => .error (.malformed comment)
  | some (reference, descriptor) =>
    match (Text.trim reference).cutAtLast? '.' with
    | none => .error (.malformed comment)
    | some (owner, name) =>
      match MethodDescriptor.ofText (Text.trim descriptor) with
      | .error e => .error (.descriptor e)
      | .ok m => .ok (Parts.ofDescriptor (Text.dotted owner) (Text.unquoted name) m)

end JvmSignature
