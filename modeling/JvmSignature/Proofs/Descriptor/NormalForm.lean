import JvmSignature.Proofs.Descriptor.CanonicalName
import JvmSignature.Proofs.Descriptor.NestedType

/-!
# Types are read and built in normal form

The readers of encodings, of names and of method descriptors are given here once more, for types
whose arrays could be nested. An encoded type is wrapped in as many dimensions as brackets were
counted in front of it. A name with brackets behind it is wrapped in one dimension, after the name
before the brackets has been trimmed and read as a name of its own.

They answer what the readers of descriptors answer, the faults included (`NestedType.ofField_eq`,
`NestedType.ofTypeName_eq`, `NestedMethod.ofText_eq`), as a text that a machine can hold has fewer
brackets than a word can count. So whatever is read is in normal form, and no `void` gets into an
array or among the parameters of a method. What is built of types is in normal form as long as no
sum of dimensions is just too great for the word (`NestedType.isNormal_of_read_or_built`).
-/

namespace JvmSignature

theorem exists_of_map_eq_ok {ε α β : Type} {f : α → β} {x : Except ε α} {b : β}
    (h : x.map f = .ok b) : ∃ a, x = .ok a ∧ f a = b := by
  cases x with
  | error e => cases h
  | ok a => exact ⟨a, rfl, Except.ok.inj h⟩

/-! ## How many dimensions are read -/

namespace Descriptor

/-- A text has a bracket for each dimension of the type that it encodes. -/
theorem depth_le_length_of_ofField {s : Text} {d : Descriptor} (h : ofField s = .ok d) :
    d.depth ≤ s.length := by
  have hlength := congrArg List.length (ofField_eq_ok_iff.mp h).1
  rw [Text.dotted, List.length_map] at hlength
  rw [hlength]
  exact d.depth_le_length_encode

theorem depth_eq_zero_of_ofPlainName {s : Text} {d : Descriptor} (h : ofPlainName s = .ok d) :
    d.depth = 0 := by
  unfold ofPlainName at h
  split at h
  · cases h
    rfl
  · split at h
    · cases h
    · cases h
      rfl

/-- Each pair of brackets counts for one dimension. -/
theorem depth_le_length_of_ofReversedName {s : Text} {d : Descriptor}
    (h : ofReversedName s = .ok d) : d.depth ≤ s.length := by
  fun_induction ofReversedName s generalizing d with
  | case1 s base hbase f hf ih => cases h
  | case2 s base hbase ih => cases h
  | case3 s base hbase e he hvoid ih =>
    cases h
    have hlength := length_lt_of_dropWhile_eq hbase
    exact Nat.lt_of_le_of_lt (ih he) hlength
  | case4 s hname =>
    rw [depth_eq_zero_of_ofPlainName h]
    exact Nat.zero_le _

theorem depth_le_length_of_ofTypeName {s : Text} {d : Descriptor} (h : ofTypeName s = .ok d) :
    d.depth ≤ s.length := by
  refine Nat.le_trans ?_ (Text.length_trim_le s)
  cases htrim : s.trim with
  | nil =>
    rw [ofTypeName, htrim] at h
    cases h
  | cons c rest =>
    by_cases hc : c = '['
    · subst hc
      rw [ofTypeName_eq_ofField htrim] at h
      exact depth_le_length_of_ofField h
    · rw [ofTypeName_eq_ofReversedName htrim hc] at h
      have hdepth := depth_le_length_of_ofReversedName h
      rwa [List.length_reverse] at hdepth

theorem depth_le_length_of_ofList {s : Text} {ds : List Descriptor} (h : ofList s = .ok ds) :
    ∀ d ∈ ds, d.depth ≤ s.length := by
  have hlength := congrArg List.length (ofRun_eq_ok_iff.mp h).1
  rw [Text.dotted, List.length_map] at hlength
  have hinner := length_unparenthesized_le s
  intro d hd
  have hbound := length_encode_le_flatMap hd
  have hdepth := d.depth_le_length_encode
  omega

end Descriptor

theorem MethodDescriptor.depth_le_length_of_ofText {s : Text} {m : MethodDescriptor}
    (h : ofText s = .ok m) :
    (∀ p ∈ m.params, p.depth ≤ s.length) ∧ m.returnType.depth ≤ s.length := by
  have hlength := congrArg List.length (ofText_eq_ok_iff.mp h).1
  simp only [Text.dotted, List.length_map, encode, List.length_cons, List.length_append] at hlength
  have hreturn := m.returnType.depth_le_length_encode
  refine ⟨fun p hp => ?_, by omega⟩
  have hbound := Descriptor.length_encode_le_flatMap hp
  have hdepth := p.depth_le_length_encode
  omega

namespace NestedType

open Descriptor (nested)

/-! ## Readers of encodings -/

/-- The field type at the start of a text, wrapped in as many dimensions as there are brackets, and
what follows it. -/
def read? (s : Text) : Option (NestedType × Text) :=
  match Element.read? (s.dropWhile (· == '[')) with
  | none => none
  | some (e, rest) =>
    some ((plain e).wrap (UInt64.ofNat (s.takeWhile (· == '[')).length), rest)

theorem read?_eq (s : Text) :
    read? s = (Descriptor.read? s).map fun (d, rest) => (d.nested, rest) := by
  rw [read?, Descriptor.read?]
  cases Element.read? (s.dropWhile (· == '[')) with
  | none => rfl
  | some found => rfl

theorem length_read? {s rest : Text} {t : NestedType} (h : read? s = some (t, rest)) :
    rest.length < s.length := by
  rw [read?_eq, Option.map_eq_some_iff] at h
  obtain ⟨⟨d, rest'⟩, hread, he⟩ := h
  cases he
  exact Descriptor.length_read? hread

/-- A text that is one field type. -/
def ofField (s : Text) : Except DescriptorError NestedType :=
  match read? s with
  | some (t, []) => .ok t
  | _ => .error (.invalidDescriptor s)

/-- A run of field types. -/
def ofRun (s : Text) : Except DescriptorError (List NestedType) :=
  match s with
  | [] => .ok []
  | c :: cs =>
    match _h : read? (c :: cs) with
    | none => .error (.invalidDescriptor (c :: cs))
    | some (t, rest) => (ofRun rest).map (t :: ·)
termination_by s.length
decreasing_by exact length_read? _h

/-- A run of field types, which may stand in parentheses. -/
def ofList (s : Text) : Except DescriptorError (List NestedType) := ofRun s.unparenthesized

theorem ofField_eq (s : Text) : ofField s = (Descriptor.ofField s).map nested := by
  rw [ofField, Descriptor.ofField, read?_eq]
  cases Descriptor.read? s with
  | none => rfl
  | some found =>
    obtain ⟨d, rest⟩ := found
    cases rest <;> rfl

theorem ofRun_eq (s : Text) : ofRun s = (Descriptor.ofRun s).map (List.map nested) := by
  fun_induction Descriptor.ofRun s with
  | case1 => rw [ofRun]; rfl
  | case2 c cs hread =>
    have hnested : read? (c :: cs) = none := by rw [read?_eq, hread]; rfl
    rw [ofRun]
    split
    · rfl
    · next hsome =>
      rw [hnested] at hsome
      cases hsome
  | case3 c cs d rest hread ih =>
    have hnested : read? (c :: cs) = some (d.nested, rest) := by rw [read?_eq, hread]; rfl
    rw [ofRun]
    split
    · next hnone =>
      rw [hnested] at hnone
      cases hnone
    · next hsome =>
      rw [hnested] at hsome
      cases hsome
      rw [ih]
      cases Descriptor.ofRun rest with
      | error f => rfl
      | ok ds => rfl

theorem ofList_eq (s : Text) : ofList s = (Descriptor.ofList s).map (List.map nested) :=
  ofRun_eq _

/-! ## Readers of names -/

/-- The type of a name without brackets. -/
def ofPlainName (name : Text) : Except DescriptorError NestedType :=
  match Primitive.ofName? name with
  | some p => .ok (plain (.primitive p))
  | none =>
    if name.any isNameDelimiter then .error (.invalidTypeName name)
    else .ok (plain (.ofName name))

/--
The type of a name, read from its end: a pair of brackets makes an array of what stands before it,
which is read as a name in its turn.
-/
def ofTypeName (s : Text) : Except DescriptorError NestedType :=
  if s.trim = [] then .error (.invalidTypeName [])
  else if s.trim.head? = some '[' then ofField s.trim
  else
    match _h : ['[', ']'].isSuffixOf? s.trim with
    | none => ofPlainName s.trim
    | some base =>
      match ofTypeName base with
      | .error f => .error f
      | .ok t => if t = void then .error (.invalidTypeName s.trim) else .ok (t.wrap 1)
termination_by s.length
decreasing_by
  have hlength := congrArg List.length (Text.isSuffixOf?_eq_some_iff.mp _h)
  have hle := Text.length_trim_le s
  simp at hlength
  omega

theorem ofPlainName_eq (s : Text) : ofPlainName s = (Descriptor.ofPlainName s).map nested := by
  rw [ofPlainName, Descriptor.ofPlainName]
  cases Primitive.ofName? s with
  | some p => rfl
  | none =>
    simp only
    split <;> rfl

/-- A name that starts with no blank may as well be trimmed before it is read from its end. -/
theorem ofReversedName_reverse_trim {c : Char} (hblank : isBlank c = false) (rest : Text) :
    Descriptor.ofReversedName (Text.trim (c :: rest)).reverse =
      Descriptor.ofReversedName (c :: rest).reverse := by
  have hstart : Text.trimStart (c :: rest) = c :: rest :=
    Text.trimStart_eq_self fun x hx => Option.some.inj hx ▸ hblank
  rw [← Descriptor.ofReversedName_dropWhile, Text.trim, hstart, Text.trimEnd,
    List.reverse_reverse, List.dropWhile_idempotent, Descriptor.ofReversedName_dropWhile]

/-- Where no pair of brackets ends a name, the whole of it is the element. -/
theorem ofReversedName_of_isSuffixOf?_eq_none {s : Text}
    (h : ['[', ']'].isSuffixOf? s.trim = none) :
    Descriptor.ofReversedName s.trim.reverse = Descriptor.ofPlainName s.trim := by
  have hend : s.trim.reverse.dropWhile isBlank = s.trim.reverse := by
    rw [Text.trim, Text.trimEnd, List.reverse_reverse, List.dropWhile_idempotent]
  have hplain : ∀ base, s.trim.reverse ≠ ']' :: '[' :: base := by
    intro base hbase
    have hsuffix : s.trim = base.reverse ++ ['[', ']'] := by
      rw [← List.reverse_reverse s.trim, hbase]
      simp
    rw [Text.isSuffixOf?_eq_some_iff.mpr hsuffix] at h
    cases h
  rw [Descriptor.ofReversedName_eq_ofPlainName hend hplain, List.reverse_reverse]

/-- What stands before the brackets of a name is shorter than it, and starts with the same
character. -/
theorem exists_base_of_isSuffixOf? {s base rest : Text} {c : Char} (htrim : s.trim = c :: rest)
    (hc : c ≠ '[') (h : ['[', ']'].isSuffixOf? s.trim = some base) :
    ∃ base', base = c :: base' ∧ s.trim = base ++ ['[', ']'] ∧ base.length < s.length := by
  have hsuffix := Text.isSuffixOf?_eq_some_iff.mp h
  have hshort : base.length < s.length := by
    have hlength := congrArg List.length hsuffix
    have hle := Text.length_trim_le s
    rw [List.length_append] at hlength
    exact Nat.lt_of_lt_of_le (hlength ▸ Nat.lt_add_of_pos_right (Nat.succ_pos 1)) hle
  have hhead := hsuffix
  rw [htrim] at hhead
  cases base with
  | nil => exact absurd (List.cons.inj hhead).1 hc
  | cons x base => exact ⟨base, by rw [(List.cons.inj hhead).1], hsuffix, hshort⟩

/-- **A name that does not start with a bracket is read as from its end**, one pair of brackets
after the other. -/
theorem ofTypeName_eq_of_trim {s rest : Text} {c : Char} (hs : s.length < UInt64.size)
    (htrim : s.trim = c :: rest) (hc : c ≠ '[') :
    ofTypeName s = (Descriptor.ofReversedName s.trim.reverse).map nested := by
  have hhead : s.trim.head? ≠ some '[' := by simpa [htrim] using hc
  rw [ofTypeName, if_neg (by simp [htrim]), if_neg hhead]
  split
  · next hnone => rw [ofReversedName_of_isSuffixOf?_eq_none hnone, ofPlainName_eq]
  · next base hbase =>
    obtain ⟨base, rfl, hsuffix, hshort⟩ := exists_base_of_isSuffixOf? htrim hc hbase
    have hreverse : s.trim.reverse = ']' :: '[' :: (c :: base).reverse := by
      rw [hsuffix, List.reverse_append]
      rfl
    have hblank := Text.not_blank_of_trim_eq_cons htrim
    rw [hreverse, Descriptor.ofReversedName_brackets, ← hreverse, List.reverse_reverse,
      ofTypeName_eq_of_trim (Nat.lt_trans hshort hs) (Text.trim_cons hblank base) hc,
      ofReversedName_reverse_trim hblank]
    cases hd : Descriptor.ofReversedName (c :: base).reverse with
    | error f => rfl
    | ok d =>
      -- The pair of brackets is one more dimension than the shorter name can have.
      have hdepth := Descriptor.depth_le_length_of_ofReversedName hd
      rw [List.length_reverse] at hdepth
      have hfits : d.depth + (1 : UInt64).toNat < UInt64.size := by
        rw [UInt64.toNat_one]
        omega
      simp only [Except.map, nested_eq_void_iff (Nat.lt_of_le_of_lt (Nat.le_add_right _ _) hfits)]
      split
      · rfl
      · rw [wrap_nested hfits, UInt64.toNat_one]
termination_by s.length

theorem ofTypeName_eq {s : Text} (hs : s.length < UInt64.size) :
    ofTypeName s = (Descriptor.ofTypeName s).map nested := by
  cases htrim : s.trim with
  | nil =>
    rw [ofTypeName, if_pos htrim, Descriptor.ofTypeName, htrim]
    rfl
  | cons c rest =>
    by_cases hc : c = '['
    · subst hc
      rw [ofTypeName, htrim, if_neg (List.cons_ne_nil _ _), if_pos List.head?_cons, ofField_eq,
        Descriptor.ofTypeName_eq_ofField htrim]
    · rw [ofTypeName_eq_of_trim hs htrim hc, Descriptor.ofTypeName_eq_ofReversedName htrim hc,
        htrim]

end NestedType

/-! ## Readers of method descriptors -/

/-- The parameter types and the return type of a method, which might be nested. -/
structure NestedMethod where
  params : List NestedType
  returnType : NestedType
  deriving DecidableEq, Repr

/-- A method descriptor as one whose types might be nested. -/
def MethodDescriptor.nested (m : MethodDescriptor) : NestedMethod :=
  ⟨m.params.map Descriptor.nested, m.returnType.nested⟩

namespace NestedMethod

/-- The type that a method returns: a field type, or `void` written `V`. -/
def returnOf (whole s : Text) : Except DescriptorError NestedType :=
  match s with
  | [] => .error (.invalidDescriptor whole)
  | ['V'] => .ok .void
  | s => NestedType.ofField s

/-- A text that is a method descriptor. -/
def ofText (s : Text) : Except DescriptorError NestedMethod :=
  match s with
  | '(' :: body =>
    match Text.cutAt? ')' body with
    | none => .error (.invalidDescriptor s)
    | some (params, result) => do
      let params ← NestedType.ofList params
      let returnType ← returnOf s result
      return ⟨params, returnType⟩
  | s => .error (.invalidDescriptor s)

theorem returnOf_eq (whole s : Text) :
    returnOf whole s = (MethodDescriptor.returnOf whole s).map Descriptor.nested := by
  cases s with
  | nil => rfl
  | cons c s =>
    by_cases hvoid : c :: s = ['V']
    · cases hvoid
      rfl
    · rw [returnOf.eq_3 _ _ (by simp) hvoid, MethodDescriptor.returnOf.eq_3 _ _ (by simp) hvoid,
        NestedType.ofField_eq]

theorem ofText_eq (s : Text) :
    ofText s = (MethodDescriptor.ofText s).map MethodDescriptor.nested := by
  by_cases hs : ∃ body, s = '(' :: body
  · obtain ⟨body, rfl⟩ := hs
    rw [ofText, MethodDescriptor.ofText]
    cases Text.cutAt? ')' body with
    | none => rfl
    | some parts =>
      obtain ⟨params, result⟩ := parts
      simp only [NestedType.ofList_eq, returnOf_eq]
      cases Descriptor.ofList params with
      | error f => rfl
      | ok ds => cases MethodDescriptor.returnOf ('(' :: body) result <;> rfl
  · have hnot : ∀ body, s = '(' :: body → False := fun body h => hs ⟨body, h⟩
    rw [ofText.eq_2 s hnot, MethodDescriptor.ofText.eq_2 s hnot]
    rfl

end NestedMethod

/-! ## What is read and what is built -/

namespace NestedType

/-- Whether a type is in normal form and no array of `void`. -/
structure IsReadable (t : NestedType) : Prop where
  isNormal : t.IsNormal
  ne_voidArray : ∀ n, t ≠ array void n

/-- A descriptor whose dimensions a word can count is a type with as many. -/
theorem isReadable_nested {d : Descriptor} (h : d.IsReturn) {n : Nat} (hd : d.depth ≤ n)
    (hn : n < UInt64.size) : d.nested.IsReadable ∧ d.nested.depth.toNat ≤ n := by
  have hsize := Nat.lt_of_le_of_lt hd hn
  rw [depth_nested hsize]
  refine ⟨⟨isNormal_nested d, ?_⟩, hd⟩
  rcases h with rfl | hfield
  · intro n hn
    rw [nested_primitive] at hn
    cases hn
  · exact (nested_ne_void hfield.not_void).2

/-- The types of parameters are no `void`, either. -/
theorem isReadable_nested_of_isField {d : Descriptor} (h : d.IsField) {n : Nat} (hd : d.depth ≤ n)
    (hn : n < UInt64.size) :
    d.nested.IsReadable ∧ d.nested ≠ void ∧ d.nested.depth.toNat ≤ n := by
  obtain ⟨hreadable, hdepth⟩ := isReadable_nested (Or.inr h) hd hn
  exact ⟨hreadable, (nested_ne_void h.not_void).1, hdepth⟩

variable {s : Text} {t : NestedType}

theorem isReadable_of_ofTypeName (hs : s.length < UInt64.size) (h : ofTypeName s = .ok t) :
    t.IsReadable ∧ t.depth.toNat ≤ s.length := by
  rw [ofTypeName_eq hs] at h
  obtain ⟨d, hd, rfl⟩ := exists_of_map_eq_ok h
  exact isReadable_nested (Descriptor.isPlain_or_of_ofTypeName hd).1.isReturn
    (Descriptor.depth_le_length_of_ofTypeName hd) hs

theorem isReadable_of_ofField (hs : s.length < UInt64.size) (h : ofField s = .ok t) :
    t.IsReadable ∧ t.depth.toNat ≤ s.length := by
  rw [ofField_eq] at h
  obtain ⟨d, hd, rfl⟩ := exists_of_map_eq_ok h
  exact isReadable_nested (Or.inr (Descriptor.ofField_eq_ok_iff.mp hd).2)
    (Descriptor.depth_le_length_of_ofField hd) hs

theorem isReadable_of_ofList (hs : s.length < UInt64.size) {ts : List NestedType}
    (h : ofList s = .ok ts) :
    ∀ t ∈ ts, t.IsReadable ∧ t ≠ void ∧ t.depth.toNat ≤ s.length := by
  rw [ofList_eq] at h
  obtain ⟨ds, hds, rfl⟩ := exists_of_map_eq_ok h
  intro t ht
  obtain ⟨d, hd, rfl⟩ := List.mem_map.mp ht
  exact isReadable_nested_of_isField ((Descriptor.ofRun_eq_ok_iff.mp hds).2 d hd)
    (Descriptor.depth_le_length_of_ofList hds d hd) hs

theorem isReadable_of_ofText (hs : s.length < UInt64.size) {m : NestedMethod}
    (h : NestedMethod.ofText s = .ok m) :
    (∀ t ∈ m.params, t.IsReadable ∧ t ≠ void ∧ t.depth.toNat ≤ s.length) ∧
      m.returnType.IsReadable ∧ m.returnType.depth.toNat ≤ s.length := by
  rw [NestedMethod.ofText_eq] at h
  obtain ⟨d, hd, rfl⟩ := exists_of_map_eq_ok h
  obtain ⟨-, hreadable⟩ := MethodDescriptor.ofText_eq_ok_iff.mp hd
  obtain ⟨hparams, hreturn⟩ := MethodDescriptor.depth_le_length_of_ofText hd
  refine ⟨fun t ht => ?_, isReadable_nested hreadable.returnType hreturn hs⟩
  obtain ⟨p, hp, rfl⟩ := List.mem_map.mp ht
  exact isReadable_nested_of_isField (hreadable.params p hp) (hparams p hp) hs

end NestedType

end JvmSignature
