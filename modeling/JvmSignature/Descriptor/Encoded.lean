import JvmSignature.Descriptor.Basic
import JvmSignature.Descriptor.Error

/-!
# Reading encoded types

The encoding of a field type is a `[` for each array dimension and then the letter of a primitive
type other than `void`, or `L`, a name and `;`. A list of parameters is a run of field types, in
parentheses or not; a method descriptor is a list in parentheses and a return type, which may be
`V`.

The reader of one type answers what is left to read, and `length_read?` says that this is less than
it was given: that is why reading a run of types ends.
-/

namespace JvmSignature

/-! ## One type -/

/-- The element type at the start of a text, and what follows it. `void` is none. -/
def Element.read? : Text → Option (Element × Text)
  | [] => none
  | 'L' :: s =>
    match Text.cutAt? ';' s with
    | none => none
    | some (name, rest) => if name = [] then none else some (.ofName name, rest)
  | c :: s =>
    match Primitive.ofCode? c with
    | none => none
    | some .void => none
    | some p => some (.primitive p, s)

theorem Element.length_read? {s : Text} {e : Element} {rest : Text}
    (h : Element.read? s = some (e, rest)) : rest.length < s.length := by
  unfold Element.read? at h
  split at h
  · cases h
  · next s =>
    split at h
    · cases h
    · next name r hc =>
      split at h
      · cases h
      · cases h
        obtain ⟨hs, _⟩ := Text.cutAt?_eq_some_iff.mp hc
        simp only [hs, List.length_cons, List.length_append]
        omega
  · split at h
    · cases h
    · cases h
    · cases h
      exact Nat.lt_succ_self _

namespace Descriptor

/-- The field type at the start of a text, and what follows it. -/
def read? (s : Text) : Option (Descriptor × Text) :=
  match Element.read? (s.dropWhile (· == '[')) with
  | none => none
  | some (e, rest) => some (⟨e, (s.takeWhile (· == '[')).length⟩, rest)

theorem length_read? {s : Text} {d : Descriptor} {rest : Text}
    (h : read? s = some (d, rest)) : rest.length < s.length := by
  unfold read? at h
  split at h
  · cases h
  · next e r he =>
    cases h
    exact Nat.lt_of_lt_of_le (Element.length_read? he) (List.dropWhile_suffix _).length_le

/-! ## Whole texts -/

/-- A text that is one field type. -/
def ofField (s : Text) : Except DescriptorError Descriptor :=
  match read? s with
  | some (d, []) => .ok d
  | _ => .error (.invalidDescriptor s)

/-- A run of field types; the fault names what is left from the first type that cannot be read. -/
def ofRun (s : Text) : Except DescriptorError (List Descriptor) :=
  match s with
  | [] => .ok []
  | c :: cs =>
    match _h : read? (c :: cs) with
    | none => .error (.invalidDescriptor (c :: cs))
    | some (d, rest) => (ofRun rest).map (d :: ·)
termination_by s.length
decreasing_by exact length_read? _h

/-- A run of field types, which may stand in parentheses. -/
def ofList (s : Text) : Except DescriptorError (List Descriptor) := ofRun s.unparenthesized

end Descriptor

namespace MethodDescriptor

/-- The type that a method returns: a field type, or `void` written `V`. -/
def returnOf (whole s : Text) : Except DescriptorError Descriptor :=
  match s with
  | [] => .error (.invalidDescriptor whole)
  | ['V'] => .ok (.primitive .void)
  | s => Descriptor.ofField s

/--
A text that is a method descriptor. The parameters end at the first `)`, so no class name in them
holds one. A fault in a parameter or in the return type names that part, any other the whole text.
-/
def ofText (s : Text) : Except DescriptorError MethodDescriptor :=
  match s with
  | '(' :: body =>
    match Text.cutAt? ')' body with
    | none => .error (.invalidDescriptor s)
    | some (params, result) => do
      let params ← Descriptor.ofList params
      let returnType ← returnOf s result
      return ⟨params, returnType⟩
  | s => .error (.invalidDescriptor s)

/-- The text of a method descriptor, with dots for slashes. -/
def encode (m : MethodDescriptor) : Text :=
  '(' :: m.params.flatMap Descriptor.encode ++ ')' :: m.returnType.encode

end MethodDescriptor

end JvmSignature
