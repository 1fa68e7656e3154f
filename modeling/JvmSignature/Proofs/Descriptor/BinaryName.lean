import JvmSignature.Proofs.Descriptor.CanonicalName

/-!
# Binary names are keys

Types are looked up under their binary names, so a type should be read from its binary name again.
This goes wrong for a class by itself whose name is not plain: `int` is read as the primitive type,
and `a b` not at all. It does not go wrong for an array of such a class, as the binary name of an
array is its encoding (`ofTypeName_binaryName_iff`).

No text is read as a type of the first kind (`exists_ofTypeName_iff`). So whatever text a type was
read from, its binary name stands for it, and for no other type that can be read
(`binaryName_faithful`).
-/

namespace JvmSignature.Descriptor

variable {d : Descriptor} {s : Text}

/-- Whether a type is read from its binary name: all arrays are, and elements whose name is plain. -/
def IsKeyed (d : Descriptor) : Prop := d.element.IsPlain ∨ 0 < d.depth

instance : DecidablePred IsKeyed := fun d => inferInstanceAs (Decidable (d.element.IsPlain ∨ _))

theorem IsNamed.isKeyed (h : d.IsNamed) : d.IsKeyed := Or.inl (Element.IsNamed.isPlain h)

theorem isKeyed_iff_of_depth_eq_zero (h : d.depth = 0) : d.IsKeyed ↔ d.element.IsPlain :=
  or_iff_left (by omega)

/-- The types that are not read from their binary names: classes by themselves, called like a
primitive type or with a delimiter in their names. -/
theorem not_isKeyed_iff : ¬ d.IsKeyed ↔ ∃ name, d = ⟨.reference name, 0⟩ ∧
    (Primitive.ofName? name ≠ none ∨ ∃ c ∈ name, isNameDelimiter c = true) := by
  obtain ⟨e, depth⟩ := d
  cases depth with
  | succ n =>
    refine iff_of_false (fun h => h (Or.inr (Nat.succ_pos n))) ?_
    rintro ⟨name, ⟨⟩, -⟩
  | zero =>
    rw [isKeyed_iff_of_depth_eq_zero rfl]
    cases e with
    | primitive p =>
      refine iff_of_false (fun h => h trivial) ?_
      rintro ⟨name, ⟨⟩, -⟩
    | reference n => simp [Element.IsPlain, Decidable.imp_iff_not_or]

/-- What is read from any text is a type that is read from its binary name. -/
theorem isKeyed_of_ofTypeName (h : ofTypeName s = .ok d) : d.IsNormal ∧ d.IsKeyed := by
  obtain ⟨hnormal, hplain | ⟨hdepth, -⟩⟩ := isPlain_or_of_ofTypeName h
  · exact ⟨hnormal, Or.inl hplain⟩
  · exact ⟨hnormal, Or.inr hdepth⟩

/-! ## Reading binary names -/

/-- A type with array dimensions is no `void`. -/
theorem IsNormal.isField (h : d.IsNormal) (hdepth : 0 < d.depth) : d.IsField := by
  refine h.isReturn.resolve_left ?_
  rintro rfl
  exact Nat.lt_irrefl 0 hdepth

/-- The reader of names reads the encoding of an array as an encoding. -/
theorem ofTypeName_encode_eq_ofField (hdepth : 0 < d.depth) :
    ofTypeName d.encode = ofField d.encode := by
  have hstart : d.encode = '[' :: (List.replicate (d.depth - 1) '[' ++ d.element.encode) := by
    rw [encode, ← List.cons_append, ← List.replicate_succ, Nat.sub_add_cancel hdepth]
  have htrim : d.encode.trim = d.encode := by
    refine Text.trim_eq_self (fun c hc => ?_) fun c hc => ?_
    · rw [hstart, List.head?_cons, Option.some_inj] at hc
      subst hc
      decide
    · obtain ⟨body, last, hencode, -, hblank⟩ := exists_encode_eq_concat d
      rw [hencode, List.getLast?_concat, Option.some_inj] at hc
      rwa [← hc]
  rw [ofTypeName_eq_ofField (htrim.trans hstart), ← hstart]

/-- **The encoding of an array is read as this array**, whatever its class is called. -/
theorem ofTypeName_encode (h : d.IsNormal) (hdepth : 0 < d.depth) : ofTypeName d.encode = .ok d := by
  have hdotted : d.encode.dotted = d.encode :=
    Text.dotted_eq_self (mt slash_mem_encode_iff.mp h.slash_notMem)
  rw [ofTypeName_encode_eq_ofField hdepth]
  exact ofField_eq_ok_iff.mpr ⟨hdotted, h.isField hdepth⟩

/-- **Which types are read from their binary names.** -/
theorem ofTypeName_binaryName_iff (h : d.IsNormal) :
    ofTypeName d.binaryName = .ok d ↔ d.IsKeyed := by
  refine ⟨fun hread => (isKeyed_of_ofTypeName hread).2, fun hkeyed => ?_⟩
  rw [binaryName]
  split
  · next hdepth =>
    have hname : d.name = d.element.name := by
      rw [name, hdepth]
      exact List.append_nil _
    rw [← hname]
    exact ofTypeName_name h ((isKeyed_iff_of_depth_eq_zero hdepth).mp hkeyed)
  · next hdepth => exact ofTypeName_encode h (Nat.pos_of_ne_zero hdepth)

/-- **Which types are read from any text**: those that are read from their binary names. -/
theorem exists_ofTypeName_iff : (∃ s, ofTypeName s = .ok d) ↔ d.IsNormal ∧ d.IsKeyed := by
  constructor
  · rintro ⟨s, h⟩
    exact isKeyed_of_ofTypeName h
  · rintro ⟨hnormal, hkeyed⟩
    exact ⟨d.binaryName, (ofTypeName_binaryName_iff hnormal).mpr hkeyed⟩

/--
**Binary names are faithful.** A type that is read from any text is read from its binary name again.
So two texts are read as types of one binary name exactly when they are read as the same type.
-/
theorem binaryName_faithful (h : ofTypeName s = .ok d) :
    ofTypeName d.binaryName = .ok d ∧
      ∀ t e, ofTypeName t = .ok e → (d.binaryName = e.binaryName ↔ d = e) := by
  have hback : ∀ t e, ofTypeName t = .ok e → ofTypeName e.binaryName = .ok e := by
    intro t e ht
    obtain ⟨hnormal, hkeyed⟩ := isKeyed_of_ofTypeName ht
    exact (ofTypeName_binaryName_iff hnormal).mpr hkeyed
  refine ⟨hback s d h, fun t e ht => ⟨fun hname => ?_, congrArg binaryName⟩⟩
  have hread := hback s d h
  rw [hname, hback t e ht] at hread
  exact (Except.ok.inj hread).symm

/-- An array of a class with a blank and brackets in its name, and one of a class called like a
primitive type. -/
theorem binaryName_faithful_brackets :
    let odd : Descriptor := ⟨.reference " b[]".toList, 1⟩
    let keyword : Descriptor := ⟨.reference "int".toList, 1⟩
    let ints : Descriptor := ⟨.primitive .int, 1⟩
    ofTypeName " [L b[]; ".toList = .ok odd ∧ ofTypeName "[Lint;".toList = .ok keyword ∧
      ofTypeName "int[]".toList = .ok ints ∧ ofTypeName odd.binaryName = .ok odd ∧
      keyword.binaryName ≠ ints.binaryName := by
  intro odd keyword ints
  have hodd : ofTypeName " [L b[]; ".toList = .ok odd := by rfl
  have hkeyword : ofTypeName "[Lint;".toList = .ok keyword := by rfl
  have hints : ofTypeName "int[]".toList = .ok ints :=
    ofTypeName_name (d := ints) ⟨Or.inr (by decide), by decide⟩ trivial
  refine ⟨hodd, hkeyword, hints, (binaryName_faithful hodd).1, ?_⟩
  rw [Ne, (binaryName_faithful hkeyword).2 _ _ hints]
  decide

end JvmSignature.Descriptor
