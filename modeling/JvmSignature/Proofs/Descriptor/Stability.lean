import JvmSignature.Proofs.Descriptor.Naming

/-!
# Expanding what was expanded

What comes out of an expansion is a name, and is kept when it is expanded again, unless it looks like
an encoding itself. Well-formed names and keywords do not, but a class may be called like one. The
name of such a class is taken for what it looks like, and of no other type the second expansion
differs from the first (`expand_expand_iff`).
-/

namespace JvmSignature

open Text (dotted)

namespace Descriptor

/-! ## Names of types -/

/-- Whether the class that a type is made of has the name of an encoding: one that a bracket starts,
or, where there are no dimensions, the letter of a primitive type. -/
def IsNamedLikeEncoding (d : Descriptor) : Prop :=
  ∃ name, d.element = .reference name ∧
    (name.head? = some '[' ∨ d.depth = 0 ∧ ∃ p : Primitive, name = [p.code])

theorem not_isNamedLikeEncoding_primitive (p : Primitive) (depth : Nat) :
    ¬ IsNamedLikeEncoding ⟨.primitive p, depth⟩ := by
  rintro ⟨name, hname, -⟩
  cases hname

theorem isNamedLikeEncoding_reference_iff {name : Text} {depth : Nat} :
    IsNamedLikeEncoding ⟨.reference name, depth⟩ ↔
      name.head? = some '[' ∨ depth = 0 ∧ ∃ p : Primitive, name = [p.code] := by
  simp [IsNamedLikeEncoding]

/-- A name without semicolons is kept with its brackets, unless it is that of an encoding. -/
theorem looksExpanded_append_brackets_iff {name : Text} (hne : name ≠ []) (hsemi : ';' ∉ name)
    (depth : Nat) : LooksExpanded (name ++ brackets depth) ↔
      ¬ (name.head? = some '[' ∨ depth = 0 ∧ ∃ p : Primitive, name = [p.code]) := by
  have hhead : (name ++ brackets depth).head? = name.head? := by
    obtain ⟨c, rest, rfl⟩ := List.exists_cons_of_ne_nil hne
    rfl
  rw [not_or, not_and]
  constructor
  · intro h
    refine ⟨fun hb => ?_, ?_⟩
    · exact absurd (h.start '[' (hhead.trans hb)) (by decide)
    · rintro rfl ⟨p, rfl⟩
      exact h.notLetter p (List.append_nil _)
  · rintro ⟨hbracket, hletter⟩
    have hnot : ';' ∉ name ++ brackets depth := by
      intro hm
      rcases List.mem_append.mp hm with hm | hm
      · exact hsemi hm
      · rcases mem_brackets hm with h | h
        · exact absurd h (by decide)
        · exact absurd h (by decide)
    refine ⟨fun c hc => ?_, fun p hp => ?_, fun n hn => hnot (by simp [hn])⟩
    · rw [isExpansionMark, Bool.or_eq_false_iff, beq_eq_false_iff_ne, beq_eq_false_iff_ne]
      constructor
      · rintro rfl
        exact hbracket (hhead.symm.trans hc)
      · rintro rfl
        exact hnot (List.mem_of_head? hc)
    · cases depth with
      | zero => exact hletter rfl ⟨p, (List.append_nil name).symm.trans hp⟩
      | succ depth =>
        have hlength := congrArg List.length hp
        have := List.length_pos_iff.mpr hne
        simp only [brackets, List.length_append, List.length_cons, List.length_nil] at hlength
        omega

/-- The name of a field type is kept, unless it is that of an encoding. -/
theorem IsField.looksExpanded_name_iff {d : Descriptor} (h : d.IsField) :
    LooksExpanded d.name ↔ ¬ d.IsNamedLikeEncoding := by
  obtain ⟨element, depth⟩ := d
  cases element with
  | primitive p =>
    refine iff_of_true ?_ (not_isNamedLikeEncoding_primitive p depth)
    have hname := p.isIdentifier_name
    refine (looksExpanded_append_brackets_iff hname.1 (hname.not_mem (by decide)) depth).mpr ?_
    rintro (hbracket | ⟨-, q, hq⟩)
    · exact absurd ((looksExpanded_keyword p).start _ hbracket) (by decide)
    · exact (looksExpanded_keyword p).notLetter q hq
  | reference name =>
    rw [isNamedLikeEncoding_reference_iff]
    exact looksExpanded_append_brackets_iff h.1 h.2 depth

/-- What is read as a field type is an encoding with slashes, and they change nothing about what the
name looks like. -/
theorem exists_encode_of_ofField {token : Text} {d : Descriptor} (h : ofField token = .ok d) :
    ∃ raw : Descriptor, token = raw.encode ∧ raw.IsField ∧
      (raw.IsNamedLikeEncoding ↔ d.IsNamedLikeEncoding) := by
  obtain ⟨element, rfl, helement⟩ := isEncoding_iff.mpr (ofField_eq_ok_iff.mp h)
  obtain ⟨e, depth⟩ := d
  cases helement with
  | @primitive p hp => exact ⟨⟨.primitive p, depth⟩, rfl, hp, Iff.rfl⟩
  | @reference name hne hsemi =>
    have hhead : (dotted name).head? = some '[' ↔ name.head? = some '[' := by
      cases name with
      | nil => exact absurd rfl hne
      | cons c name => simp [dotted, Text.turned_eq_iff]
    have hletter : ∀ p : Primitive, dotted name = [p.code] ↔ name = [p.code] := by
      intro p
      obtain ⟨hslash, hdot, -⟩ := p.code_ne
      rw [Text.dotted_eq_cons_iff hslash hdot]
      simp [dotted]
    refine ⟨⟨.reference name, depth⟩, rfl, ⟨hne, hsemi⟩, ?_⟩
    have hraw : IsNamedLikeEncoding ⟨.reference name, depth⟩ ↔ _ := isNamedLikeEncoding_reference_iff
    have hd : IsNamedLikeEncoding ⟨.ofName name, depth⟩ ↔ _ := isNamedLikeEncoding_reference_iff
    simp only [hhead, hletter] at hd
    exact hraw.trans hd.symm

/-! ## Expanding twice -/

/--
**The second expansion is the first, unless the class has the name of an encoding.** Of what is read
as a field type the name is kept when it is expanded again, exactly if its class is not called like
an encoding. Every well-formed name with its brackets, and every keyword, is expanded once for all.
-/
theorem expand_expand_iff (token : Text) :
    (∀ d, ofField token = .ok d →
      (expand (expand token) = expand token ↔ ¬ d.IsNamedLikeEncoding)) ∧
    (∀ name depth, token = name ++ brackets depth →
      (IsQualifiedName name ∨ ∃ p : Primitive, name = p.name) →
        expand (expand token) = expand token) := by
  constructor
  · intro d h
    obtain ⟨raw, rfl, hfield, hnamed⟩ := exists_encode_of_ofField h
    rw [expand_encode, expand_eq_self_iff, hfield.looksExpanded_name_iff, hnamed]
  · rintro name depth rfl hname
    have hqualified : IsQualifiedName name := by
      rcases hname with h | ⟨p, rfl⟩
      · exact h
      · exact p.isIdentifier_name.isQualifiedName
    obtain ⟨c, rest, hc, hchar⟩ := hqualified.head
    have hne : name ≠ [] := by simp [hc]
    have hlooks := looksExpanded_append_brackets_iff hne (hqualified.not_mem (by decide)) depth
    by_cases h : LooksExpanded (name ++ brackets depth)
    · rw [h.expand_eq_self, h.expand_eq_self]
    · -- What is not kept is a letter, and its keyword is.
      rcases Classical.not_not.mp (mt hlooks.mpr h) with hbracket | ⟨rfl, p, rfl⟩
      · rw [hc] at hbracket
        exact absurd (Option.some.inj hbracket) (ne_of_isNameChar hchar (by decide))
      · have hletter : expand ([p.code] ++ brackets 0) = p.name :=
          (expand_encode ⟨.primitive p, 0⟩).trans (List.append_nil _)
        rw [hletter, (looksExpanded_keyword p).expand_eq_self]

/-- The name of the class `I` is taken for a letter the second time. That of an array of this class
is kept, and so are a name with brackets and one that stands for itself from the beginning. -/
theorem expand_expand_iff_letter :
    let letter : Descriptor := .reference "I".toList
    ofField "LI;".toList = .ok letter ∧ letter.IsNamedLikeEncoding ∧
      expand "LI;".toList = "I".toList ∧ expand (expand "LI;".toList) = "int".toList ∧
      expand (expand "LI;".toList) ≠ expand "LI;".toList ∧
      ofField "[LI;".toList = .ok (letter.array 1) ∧ ¬ (letter.array 1).IsNamedLikeEncoding ∧
      expand (expand "[LI;".toList) = expand "[LI;".toList ∧
      IsQualifiedName "a.I".toList ∧
      expand (expand ("a.I".toList ++ brackets 2)) = expand ("a.I".toList ++ brackets 2) := by
  intro letter
  have hletter : ofField "LI;".toList = .ok letter := by rfl
  have harray : ofField "[LI;".toList = .ok (letter.array 1) := by rfl
  have hnamed : letter.IsNamedLikeEncoding := ⟨"I".toList, rfl, Or.inr ⟨rfl, .int, rfl⟩⟩
  have hkept : ¬ (letter.array 1).IsNamedLikeEncoding := by
    have hiff : (letter.array 1).IsNamedLikeEncoding ↔ _ := isNamedLikeEncoding_reference_iff
    rw [hiff]
    rintro (h | ⟨h, -⟩)
    · exact absurd h (by decide)
    · exact absurd h (by decide)
  have hqualified : IsQualifiedName "a.I".toList := by decide +kernel
  exact ⟨hletter, hnamed, by rfl, by rfl,
    fun h => ((expand_expand_iff "LI;".toList).1 letter hletter).mp h hnamed, harray, hkept,
    ((expand_expand_iff "[LI;".toList).1 _ harray).mpr hkept, hqualified,
    (expand_expand_iff _).2 "a.I".toList 2 rfl (Or.inl hqualified)⟩

end Descriptor

end JvmSignature
