import JvmSignature.Proofs.Descriptor.Naming
import Mathlib.Data.List.DropRight

/-!
# Names that are read back

A type is read from many texts, and has one name. The name is read as the type again when the element
is *plain*: a primitive type, or a class whose name is no keyword and holds nothing by which the reader
of names finds an end (`ofTypeName_name`).

The reader of names lets no other element through, except one: an encoded array is read by the reader
of encodings, which takes everything between `L` and `;` for a class name. The array of a class `int`,
written `[Lint;`, has the name of the array of integers, and is not read back
(`ofTypeName_name_iff_isPlain`).
-/

namespace JvmSignature

/-! ## Plain elements -/

/-- Whether an element has a name that only names it: a primitive type, or a class whose name is no
keyword and holds no delimiter. -/
def Element.IsPlain : Element → Prop
  | .primitive _ => True
  | .reference name => Primitive.ofName? name = none ∧ ∀ c ∈ name, isNameDelimiter c = false

instance : DecidablePred Element.IsPlain
  | .primitive _ => inferInstanceAs (Decidable True)
  | .reference _ => inferInstanceAs (Decidable (_ ∧ _))

theorem not_blank_of_not_delimiter {c : Char} (h : isNameDelimiter c = false) : isBlank c = false :=
  (Bool.or_eq_false_iff.mp h).1

theorem Primitive.isNameDelimiter_name (p : Primitive) : ∀ c ∈ p.name, isNameDelimiter c = false := by
  cases p <;> exact forall_mem_of_all (by decide)

/-- Turning slashes makes no keyword of a name, and takes none apart. -/
theorem Primitive.ofName?_dotted (name : Text) : ofName? name.dotted = ofName? name := by
  refine Option.ext fun p => ?_
  rw [ofName?_eq_some_iff, ofName?_eq_some_iff]
  constructor
  · intro h
    have hslash : '/' ∉ name := by
      intro hm
      have hdot : '.' ∈ p.name := h ▸ List.mem_map.mpr ⟨'/', hm, rfl⟩
      exact p.isIdentifier_name.not_mem (by decide) hdot
    rw [h, Text.dotted_eq_self hslash]
  · intro h
    rw [← h, p.dotted_name]

namespace Element

variable {e : Element}

theorem IsPlain.not_delimiter (h : e.IsPlain) : ∀ c ∈ e.name, isNameDelimiter c = false := by
  cases e with
  | primitive p => exact p.isNameDelimiter_name
  | reference n => exact h.2

theorem IsPlain.not_blank (h : e.IsPlain) {c : Char} (hc : c ∈ e.name) : isBlank c = false :=
  not_blank_of_not_delimiter (h.not_delimiter c hc)

/-- Elements with well-formed names are plain. -/
theorem IsNamed.isPlain (h : e.IsNamed) : e.IsPlain := by
  cases e with
  | primitive p => trivial
  | reference n =>
    refine ⟨h.2, fun c hc => ?_⟩
    have hmarks : "<>;[](),".toList ⊆ delimitersBut ['.'] := by decide
    rw [isNameDelimiter, h.1.isTypeText.not_blank hc,
      contains_eq_false_of_mem (fun m hm => h.1.not_mem (hmarks hm)) hc]
    rfl

end Element

namespace Descriptor

/-- Whether a type is one that a text can be read as: it has an encoding or is `void`, and its class
name is written with dots. -/
structure IsNormal (d : Descriptor) : Prop where
  isReturn : d.IsReturn
  slash_notMem : '/' ∉ d.element.name

variable {d : Descriptor} {e : Element} {s : Text}

theorem IsReturn.name_ne_nil (h : d.IsReturn) : d.element.name ≠ [] := by
  rcases h with rfl | hfield
  · decide
  · unfold IsField at hfield
    cases he : d.element with
    | primitive p => cases p <;> decide
    | reference n =>
      rw [he] at hfield
      exact hfield.1

/-- Types with well-formed names are normal. An array of `void` is none. -/
theorem IsNamed.isNormal (h : d.IsNamed) (hvoid : d.depth = 0 ∨ d.element ≠ .primitive .void) :
    d.IsNormal := by
  refine ⟨?_, (Element.isQualifiedName_name h).not_mem (by decide)⟩
  by_cases he : d.element = .primitive .void
  · obtain ⟨e, n⟩ := d
    obtain rfl : n = 0 := hvoid.resolve_right fun hne => hne he
    exact Or.inl (congrArg (Descriptor.mk · 0) he)
  · exact Or.inr (Element.isField h he)

/-- An encoding has the slashes of the class name in it. -/
theorem slash_mem_encode_iff : '/' ∈ d.encode ↔ '/' ∈ d.element.name := by
  have hdimensions : '/' ∉ List.replicate d.depth '[' := fun hm =>
    absurd (List.eq_of_mem_replicate hm) (by decide)
  rw [encode, List.mem_append, or_iff_right hdimensions]
  cases d.element with
  | primitive p =>
    rw [Element.encode, List.mem_singleton]
    exact iff_of_false p.code_ne.1.symm (p.isIdentifier_name.not_mem (by decide))
  | reference n => simp [Element.encode, Element.name]

/-- A field type is normal where its encoding comes out of a text whose slashes are read as dots. -/
theorem IsField.isNormal (h : d.IsField) (s : Text) (hs : d.encode ⊆ s.dotted) : d.IsNormal :=
  ⟨Or.inr h, fun hm => Text.slash_not_mem_dotted s (hs (slash_mem_encode_iff.mpr hm))⟩

/-- The types of an encoded list are normal field types. -/
theorem isNormal_of_ofList {ds : List Descriptor} (h : ofList s = .ok ds) (hd : d ∈ ds) :
    d.IsNormal ∧ d.IsField := by
  obtain ⟨hs, hfields⟩ := ofRun_eq_ok_iff.mp h
  have hfield := hfields d hd
  refine ⟨hfield.isNormal s.unparenthesized fun c hc => ?_, hfield⟩
  rw [hs]
  exact List.mem_flatMap.mpr ⟨d, hd, hc⟩

/-! ## Reading names without brackets -/

theorem ofPlainName_name (h : e.IsPlain) (hslash : '/' ∉ e.name) :
    ofPlainName e.name = .ok ⟨e, 0⟩ := by
  unfold ofPlainName
  cases e with
  | primitive p =>
    rw [Element.name, Primitive.ofName?_name]
    rfl
  | reference n =>
    have hdelimiter : ¬ n.any isNameDelimiter = true := by
      rw [Bool.not_eq_true, List.any_eq_false]
      exact fun c hc => Bool.not_eq_true _ ▸ h.2 c hc
    have hdots : n.dotted = n := Text.dotted_eq_self hslash
    rw [Element.name, h.1, if_neg hdelimiter, reference, Element.ofName, hdots]

/-- What is read from a name without brackets is plain. -/
theorem isPlain_of_ofPlainName (hne : s ≠ []) (h : ofPlainName s = .ok d) :
    d.IsNormal ∧ d.element.IsPlain := by
  unfold ofPlainName at h
  split at h
  · next p hp =>
    cases h
    refine ⟨⟨?_, p.isIdentifier_name.not_mem (by decide)⟩, trivial⟩
    by_cases hv : p = .void
    · exact Or.inl (by rw [hv])
    · exact Or.inr hv
  · next hp =>
    split at h
    · cases h
    · next hany =>
      cases h
      rw [Bool.not_eq_true, List.any_eq_false] at hany
      have hdelimiter : ∀ c ∈ s.dotted, isNameDelimiter c = false := by
        intro c hc
        obtain ⟨x, hx, rfl⟩ := List.mem_map.mp hc
        split
        · decide
        · exact Bool.not_eq_true _ ▸ hany x hx
      have hsemi : ';' ∉ s.dotted := fun hm => absurd (hdelimiter ';' hm) (by decide)
      have hne' : s.dotted ≠ [] := by simpa [Text.dotted] using hne
      exact ⟨⟨Or.inr ⟨hne', hsemi⟩, Text.slash_not_mem_dotted s⟩,
        (Primitive.ofName?_dotted s).trans hp, hdelimiter⟩

/-! ## Reading names with brackets -/

/-- What is read from a name that starts with neither a blank nor a bracket is plain. -/
theorem isPlain_of_ofReversedName {rest : Text} {c : Char} (hblank : isBlank c = false)
    (hbracket : c ≠ '[') (h : ofReversedName (rest ++ [c]) = .ok d) :
    d.IsNormal ∧ d.element.IsPlain := by
  generalize hs : rest ++ [c] = s at h
  fun_induction ofReversedName s generalizing rest d with
  | case1 s base hbase f hf ih => cases h
  | case2 s base hbase hd ih => cases h
  | case3 s base hbase d' hd hvoid ih =>
    subst hs
    rw [Text.dropWhile_isBlank_concat rest hblank] at hbase
    -- The first character of the name stands before the brackets.
    obtain ⟨rest', rfl⟩ : ∃ rest', base = rest' ++ [c] := by
      have hlast : (']' :: '[' :: base).getLast? = some c := by rw [← hbase, List.getLast?_concat]
      rcases List.eq_nil_or_concat base with rfl | ⟨rest', x, rfl⟩
      · exact absurd (Option.some.inj hlast).symm hbracket
      · rw [List.concat_eq_append, ← List.cons_append, ← List.cons_append, List.getLast?_concat,
          Option.some_inj] at hlast
        exact ⟨rest', by rw [List.concat_eq_append, hlast]⟩
    cases h
    obtain ⟨hnormal, hplain⟩ := ih rfl hd
    refine ⟨⟨Or.inr ?_, hnormal.slash_notMem⟩, hplain⟩
    exact hnormal.isReturn.resolve_left hvoid
  | case4 s hname =>
    subst hs
    rw [Text.dropWhile_isBlank_concat rest hblank] at h
    exact isPlain_of_ofPlainName (by simp) h

/-! ## Reading every name -/

/-- What is read from an encoding that starts with a bracket is the type of that encoding, an array. -/
theorem isNormal_of_ofField_bracket {rest : Text} (h : ofField ('[' :: rest) = .ok d) :
    d.IsNormal ∧ 0 < d.depth ∧ Text.dotted ('[' :: rest) = d.encode := by
  obtain ⟨hencode, hfield⟩ := ofField_eq_ok_iff.mp h
  have hdepth : 0 < d.depth := by
    rw [Nat.pos_iff_ne_zero]
    intro hzero
    obtain ⟨c, t, hc, -, -, hbracket, -⟩ := d.element.encode_ne_bracket
    rw [encode, hzero, List.replicate_zero, List.nil_append, hc] at hencode
    exact hbracket (List.cons.inj hencode).1.symm
  exact ⟨hfield.isNormal ('[' :: rest) fun _ hc => hencode ▸ hc, hdepth, hencode⟩

/-- **Every type that is read from a name is normal, and it is plain** unless the text is the encoding
of an array. -/
theorem isPlain_or_of_ofTypeName (h : ofTypeName s = .ok d) :
    d.IsNormal ∧ (d.element.IsPlain ∨ (0 < d.depth ∧ s.trim.dotted = d.encode)) := by
  unfold ofTypeName at h
  split at h
  · cases h
  · next rest htrim =>
    obtain ⟨hnormal, hencoded⟩ := isNormal_of_ofField_bracket h
    exact ⟨hnormal, Or.inr (htrim ▸ hencoded)⟩
  · next name hnil hstart =>
    obtain ⟨c, rest, htrim⟩ := List.exists_cons_of_ne_nil hnil
    rw [htrim, List.reverse_cons] at h
    have hbracket : c ≠ '[' := by
      rintro rfl
      exact hstart rest htrim
    obtain ⟨hnormal, hplain⟩ :=
      isPlain_of_ofReversedName (Text.not_blank_of_trim_eq_cons htrim) hbracket h
    exact ⟨hnormal, Or.inl hplain⟩

/-! ## Reading back -/

/-- Blanks behind a name, which is given back to front, are passed over. -/
theorem ofReversedName_dropWhile (s : Text) :
    ofReversedName (s.dropWhile isBlank) = ofReversedName s := by
  unfold ofReversedName
  rw [List.dropWhile_idempotent]

theorem ofReversedName_brackets (base : Text) :
    ofReversedName (']' :: '[' :: base) =
      match ofReversedName base with
      | .error f => .error f
      | .ok d =>
        if d = .primitive .void then .error (.invalidTypeName (']' :: '[' :: base).reverse)
        else .ok (d.array 1) := by
  have hblank : (']' :: '[' :: base).dropWhile isBlank = ']' :: '[' :: base :=
    List.dropWhile_cons_of_neg (by decide)
  rw [ofReversedName]
  split
  · next found hfound =>
    rw [hblank] at hfound
    cases hfound
    rfl
  · next hnone => exact absurd hblank (hnone base)

theorem ofReversedName_eq_ofPlainName (hblank : s.dropWhile isBlank = s)
    (h : ∀ base, s ≠ ']' :: '[' :: base) : ofReversedName s = ofPlainName s.reverse := by
  unfold ofReversedName
  split
  · next base hs =>
    rw [hblank] at hs
    exact absurd hs (h base)
  · rw [hblank]

/-- The brackets behind the name of a plain element are read one pair after the other. -/
theorem ofReversedName_name (h : e.IsPlain) (hslash : '/' ∉ e.name) (n : Nat)
    (hvoid : n = 0 ∨ e ≠ .primitive .void) :
    ofReversedName (name ⟨e, n⟩).reverse = .ok ⟨e, n⟩ := by
  induction n with
  | zero =>
    have hblank : e.name.reverse.dropWhile isBlank = e.name.reverse :=
      Text.trimStart_eq_self fun c hc =>
        h.not_blank (List.mem_reverse.mp (List.mem_of_head? hc))
    have hbrackets : ∀ base, e.name.reverse ≠ ']' :: '[' :: base := by
      intro base hb
      have hm : ']' ∈ e.name := by
        rw [← List.mem_reverse, hb]
        exact List.mem_cons_self
      exact absurd (h.not_delimiter ']' hm) (by decide)
    have hname : name ⟨e, 0⟩ = e.name := List.append_nil _
    rw [hname, ofReversedName_eq_ofPlainName hblank hbrackets, List.reverse_reverse,
      ofPlainName_name h hslash]
  | succ n ih =>
    have hne : e ≠ .primitive .void := hvoid.resolve_left (Nat.succ_ne_zero n)
    have hname : (name ⟨e, n + 1⟩).reverse = ']' :: '[' :: (name ⟨e, n⟩).reverse := by
      rw [name, name, brackets_concat, ← List.append_assoc, List.reverse_append]
      rfl
    have hnot : (⟨e, n⟩ : Descriptor) ≠ .primitive .void := fun he =>
      hne (congrArg Descriptor.element he)
    rw [hname, ofReversedName_brackets, ih (Or.inr hne)]
    exact if_neg hnot

/-- What starts with a bracket is read as an encoding. -/
theorem ofTypeName_eq_ofField {rest : Text} (h : s.trim = '[' :: rest) :
    ofTypeName s = ofField ('[' :: rest) := by
  rw [ofTypeName, h]
  rfl

/-- Anything else is read as a name. -/
theorem ofTypeName_eq_ofReversedName {c : Char} {rest : Text} (h : s.trim = c :: rest)
    (hc : c ≠ '[') : ofTypeName s = ofReversedName (c :: rest).reverse := by
  rw [ofTypeName, h]
  split
  · next hnil => cases hnil
  · next more hstart => exact absurd (List.cons.inj hstart).1 hc
  · rfl

/-- **The name of a plain type is read as this type.** -/
theorem ofTypeName_name (h : d.IsNormal) (hplain : d.element.IsPlain) :
    ofTypeName d.name = .ok d := by
  obtain ⟨e, n⟩ := d
  have hvoid : n = 0 ∨ e ≠ .primitive .void := by
    rcases h.isReturn with he | hfield
    · exact Or.inl (congrArg Descriptor.depth he)
    · exact Or.inr hfield.not_void
  have hread := ofReversedName_name hplain h.slash_notMem n hvoid
  have htrim : (name ⟨e, n⟩).trim = name ⟨e, n⟩ := by
    refine Text.trim_eq_self_of_forall fun c hc => ?_
    rcases List.mem_append.mp hc with hc | hc
    · exact hplain.not_blank hc
    · rcases mem_brackets hc with rfl | rfl <;> decide
  obtain ⟨c, rest, hc⟩ := List.exists_cons_of_ne_nil h.isReturn.name_ne_nil
  have hbracket : c ≠ '[' := by
    rintro rfl
    have hm : '[' ∈ e.name := hc ▸ List.mem_cons_self
    exact absurd (hplain.not_delimiter '[' hm) (by decide)
  have hname : name ⟨e, n⟩ = c :: (rest ++ brackets n) := by
    rw [name, hc, List.cons_append]
  rw [ofTypeName_eq_ofReversedName (htrim.trans hname) hbracket, ← hname]
  exact hread

/-- What ends an encoding. -/
theorem exists_encode_eq_concat (d : Descriptor) :
    ∃ body c, d.encode = body ++ [c] ∧ c ≠ ']' ∧ isBlank c = false := by
  rw [encode]
  cases d.element with
  | primitive p =>
    refine ⟨List.replicate d.depth '[', p.code, rfl, ?_⟩
    cases p <;> decide
  | reference n =>
    refine ⟨List.replicate d.depth '[' ++ 'L' :: n, ';', ?_, by decide, by decide⟩
    rw [Element.encode, List.append_assoc]

/-- The name of an array is no encoding, with blanks around it or without: it ends with a bracket. -/
theorem dotted_trim_name_ne_encode (h : 0 < d.depth) : d.name.trim.dotted ≠ d.encode := by
  intro he
  have hname : d.name = d.element.name ++ brackets (d.depth - 1) ++ ['['] ++ [']'] := by
    rw [name, ← Nat.sub_add_cancel h, brackets_concat, Nat.add_sub_cancel]
    simp
  obtain ⟨body, c, hencode, hc, -⟩ := exists_encode_eq_concat d
  rw [hname, Text.trim_concat _ (by decide), Text.dotted_append, hencode] at he
  have hlast : ([']'] : Text) = [c] := List.append_inj_right' he rfl
  exact hc (List.cons.inj hlast).1.symm

/--
**Which types are read back from their names.** Of a type that is read from any text:

1. It is read from its name again exactly when its element is plain.
2. The element is plain unless the text, without blanks at its ends, is the encoding of an array.
3. Where it is plain, another type that is read and has the same name is the same type exactly when
   its element is plain too.
-/
theorem ofTypeName_name_iff_isPlain (h : ofTypeName s = .ok d) :
    (ofTypeName d.name = .ok d ↔ d.element.IsPlain) ∧
    (d.element.IsPlain ∨ (0 < d.depth ∧ s.trim.dotted = d.encode)) ∧
    (d.element.IsPlain → ∀ t e, ofTypeName t = .ok e → d.name = e.name →
      (d = e ↔ e.element.IsPlain)) := by
  have hback : ∀ t e, ofTypeName t = .ok e → e.element.IsPlain → ofTypeName e.name = .ok e :=
    fun t e ht hplain => ofTypeName_name (isPlain_or_of_ofTypeName ht).1 hplain
  refine ⟨⟨fun hd => ?_, hback s d h⟩, (isPlain_or_of_ofTypeName h).2, ?_⟩
  · rcases (isPlain_or_of_ofTypeName hd).2 with hplain | ⟨hdepth, hencode⟩
    · exact hplain
    · exact absurd hencode (dotted_trim_name_ne_encode hdepth)
  · intro hd t e ht hname
    constructor
    · rintro rfl
      exact hd
    · intro he
      have hread := hback s d h hd
      rw [hname, hback t e ht he] at hread
      exact (Except.ok.inj hread).symm

/-- An array of integers, and an array of a class that is called like them. -/
theorem ofTypeName_name_iff_isPlain_keyword :
    let ints := (primitive .int).array 1
    let odd := (reference "int".toList).array 1
    ofTypeName " [I ".toList = .ok ints ∧ ints.element.IsPlain ∧ ofTypeName ints.name = .ok ints ∧
      ofTypeName "[Lint;".toList = .ok odd ∧ ¬ odd.element.IsPlain ∧
      ofTypeName odd.name ≠ .ok odd ∧ ints.name = odd.name ∧ ints ≠ odd := by
  intro ints odd
  have hints : ofTypeName " [I ".toList = .ok ints := by rfl
  have hodd : ofTypeName "[Lint;".toList = .ok odd := by rfl
  have hplain : ints.element.IsPlain := trivial
  have hnot : ¬ odd.element.IsPlain := by decide
  have hname : ints.name = odd.name := by rfl
  obtain ⟨hback, -, hunique⟩ := ofTypeName_name_iff_isPlain hints
  exact ⟨hints, hplain, hback.mpr hplain, hodd, hnot,
    fun h => hnot ((ofTypeName_name_iff_isPlain hodd).1.mp h), hname,
    fun h => hnot ((hunique hplain _ _ hodd hname).mp h)⟩

end Descriptor

end JvmSignature
