import JvmSignature.Proofs.Descriptor.Expansion

/-!
# Names and encodings of the same type

A type goes through a lookup as a text: read as an encoding or as a name, expanded, looked up, and
read again. For a type whose class name is well-formed none of these steps loses it. Its name and
its encoding expand to the name, and the name is looked up as the type itself.

Only one confusion is possible. A class whose name is made of nothing but letters of primitive types,
such as `B` or `DI`, is spelled like an encoding; `IsDistinct` excludes it where that matters. In a
list of types `V` stands for nothing, so there a class may be called so (`IsNoRun`).
-/

namespace JvmSignature

open SourceOutline (isNameChar)

/-! ## Types with well-formed names -/

/-- Whether a class name is well-formed; primitive types have no other name than their keyword. -/
def Element.IsNamed : Element → Prop
  | .primitive _ => True
  | .reference name => IsClassName name

instance : DecidablePred Element.IsNamed
  | .primitive _ => inferInstanceAs (Decidable True)
  | .reference name => inferInstanceAs (Decidable (IsClassName name))

/-- Whether a class name spells no run of primitive types: not all of it are their letters. -/
def Element.IsDistinct : Element → Prop
  | .primitive _ => True
  | .reference name => ∃ c ∈ name, Primitive.ofCode? c = none

instance : DecidablePred Element.IsDistinct
  | .primitive _ => inferInstanceAs (Decidable True)
  | .reference name =>
    decidable_of_iff (name.any (fun c => Primitive.ofCode? c = none) = true) (by
      simp only [List.any_eq_true, decide_eq_true_eq, Element.IsDistinct])

/-- The letters of the primitive types that a list of types may hold. -/
def fieldLetters : Text := "BCDFIJSZ".toList

/-- Whether a class name spells no list of primitive types: not all of it are their letters. -/
def Element.IsNoRun : Element → Prop
  | .primitive _ => True
  | .reference name => ∃ c ∈ name, c ∉ fieldLetters

instance : DecidablePred Element.IsNoRun
  | .primitive _ => inferInstanceAs (Decidable True)
  | .reference name =>
    decidable_of_iff (name.any (fun c => c ∉ fieldLetters) = true) (by
      simp only [List.any_eq_true, decide_eq_true_eq, Element.IsNoRun])

theorem Primitive.isIdentifier_name (p : Primitive) : IsIdentifier p.name := by
  cases p <;> decide +kernel

theorem Primitive.isNameChar_code (p : Primitive) : isNameChar p.code = true := by
  cases p <;> decide +kernel

theorem Primitive.code_mem_fieldLetters {p : Primitive} (h : p ≠ .void) :
    p.code ∈ fieldLetters := by
  cases p <;> first | decide | exact absurd rfl h

theorem ofCode?_ne_none_of_mem_fieldLetters {c : Char} (h : c ∈ fieldLetters) :
    Primitive.ofCode? c ≠ none := by
  have letters : ∀ c ∈ fieldLetters, Primitive.ofCode? c ≠ none := forall_mem_of_all (by decide)
  exact letters c h

/-- No keyword is made of letters of primitive types. -/
theorem Primitive.exists_not_code (p : Primitive) : ∃ c ∈ p.name, ofCode? c = none := by
  have hany : p.name.any (fun c => ofCode? c = none) = true := by cases p <;> decide
  obtain ⟨c, hc, hcode⟩ := List.any_eq_true.mp hany
  exact ⟨c, hc, of_decide_eq_true hcode⟩

theorem Element.exists_not_code {e : Element} (h : e.IsDistinct) :
    ∃ c ∈ e.name, Primitive.ofCode? c = none := by
  cases e with
  | primitive p => exact p.exists_not_code
  | reference name => exact h

/-- A name that is no text of letters of primitive types is none of fewer letters. -/
theorem Element.IsDistinct.isNoRun {e : Element} (h : e.IsDistinct) : e.IsNoRun := by
  cases e with
  | primitive p => trivial
  | reference name =>
    obtain ⟨c, hc, hcode⟩ := h
    exact ⟨c, hc, fun hletter => ofCode?_ne_none_of_mem_fieldLetters hletter hcode⟩

theorem Element.exists_not_fieldLetter {e : Element} (h : e.IsNoRun) :
    ∃ c ∈ e.name, c ∉ fieldLetters := by
  cases e with
  | primitive p => exact Element.IsDistinct.isNoRun (e := .reference p.name) p.exists_not_code
  | reference name => exact h

namespace Element

/-- A named element is called by a qualified name. -/
theorem isQualifiedName_name {e : Element} (h : e.IsNamed) : IsQualifiedName e.name := by
  cases e with
  | primitive p => exact p.isIdentifier_name.isQualifiedName
  | reference name => exact h.1

/-- A named element is a field type, unless it is `void`. -/
theorem isField {e : Element} (h : e.IsNamed) (hv : e ≠ .primitive .void) : e.IsField := by
  cases e with
  | primitive p => exact fun hp => hv (by rw [hp])
  | reference name =>
    obtain ⟨c, rest, hc, -⟩ := h.1.head
    refine ⟨by rw [hc]; exact List.cons_ne_nil c rest, ?_⟩
    exact h.1.not_mem (by decide)

end Element

namespace Descriptor

/-- Whether the class name of a type is well-formed. -/
def IsNamed (d : Descriptor) : Prop := d.element.IsNamed

instance : DecidablePred IsNamed := fun d => inferInstanceAs (Decidable d.element.IsNamed)

/-- Whether the class name of a type spells no run of primitive types. -/
def IsDistinct (d : Descriptor) : Prop := d.element.IsDistinct

instance : DecidablePred IsDistinct := fun d => inferInstanceAs (Decidable d.element.IsDistinct)

/-- Whether the class name of a type spells no list of primitive types. -/
def IsNoRun (d : Descriptor) : Prop := d.element.IsNoRun

instance : DecidablePred IsNoRun := fun d => inferInstanceAs (Decidable d.element.IsNoRun)

end Descriptor

/-! ## Characters of names and encodings -/

/-- The characters besides those of identifiers that names and encodings of types hold. -/
def typeMarks : Text := ".[];".toList

/-- Whether a text could be a name or an encoding of a type, by its characters. -/
def IsTypeText (s : Text) : Prop := ∀ c ∈ s, isNameChar c = true ∨ c ∈ typeMarks

theorem IsTypeText.not_mem {s : Text} (h : IsTypeText s) {c : Char}
    (hc : c ∈ delimitersBut typeMarks) : c ∉ s := by
  intro hm
  obtain ⟨hdelimiter, hmark⟩ := mem_delimitersBut_iff.mp hc
  rcases h c hm with hn | hn
  · exact ne_of_isNameChar hn hdelimiter rfl
  · exact hmark hn

theorem IsTypeText.not_blank {s : Text} (h : IsTypeText s) {c : Char} (hm : c ∈ s) :
    isBlank c = false := by
  have marks : ∀ c ∈ typeMarks, isBlank c = false := forall_mem_of_all (by decide)
  rcases h c hm with hn | hn
  · exact isBlank_of_isNameChar hn
  · exact marks c hn

/-- A text of these characters is not trimmed. -/
theorem IsTypeText.trim {s : Text} (h : IsTypeText s) : s.trim = s :=
  Text.trim_eq_self_of_forall fun _ hc => h.not_blank hc

theorem IsTypeText.append {s t : Text} (hs : IsTypeText s) (ht : IsTypeText t) :
    IsTypeText (s ++ t) :=
  fun c hc => (List.mem_append.mp hc).elim (hs c) (ht c)

theorem IsQualifiedName.isTypeText {s : Text} (h : IsQualifiedName s) : IsTypeText s := by
  intro c hc
  rcases isNameChar_or_eq_dot h hc with hn | rfl
  · exact Or.inl hn
  · exact Or.inr (by decide)

namespace Descriptor

variable {d : Descriptor}

theorem isTypeText_name (h : d.IsNamed) : IsTypeText d.name := by
  refine (Element.isQualifiedName_name h).isTypeText.append fun c hc => Or.inr ?_
  rcases mem_brackets hc with rfl | rfl <;> decide

theorem isTypeText_encode (h : d.IsNamed) : IsTypeText d.encode := by
  refine IsTypeText.append (fun c hc => Or.inr ?_) ?_
  · rw [List.eq_of_mem_replicate hc]
    decide
  · unfold IsNamed at h
    cases he : d.element with
    | primitive p =>
      intro c hc
      rw [Element.encode, List.mem_singleton] at hc
      exact Or.inl (hc ▸ p.isNameChar_code)
    | reference n =>
      rw [he] at h
      have hL : isNameChar 'L' = true := by decide +kernel
      have hstart : IsTypeText ['L'] := fun c hc => Or.inl (List.mem_singleton.mp hc ▸ hL)
      have hend : IsTypeText [';'] := fun c hc => Or.inr (List.mem_singleton.mp hc ▸ by decide)
      exact hstart.append (h.1.isTypeText.append hend)

/-- The encodings of named types hold only characters of encodings. -/
theorem isTypeText_encodings {ds : List Descriptor} (h : ∀ d ∈ ds, d.IsNamed) :
    IsTypeText (ds.flatMap encode) := by
  intro c hc
  obtain ⟨d, hd, hm⟩ := List.mem_flatMap.mp hc
  exact isTypeText_encode (h d hd) c hm

/-- No name of a type holds a semicolon. -/
theorem semicolon_not_mem_name (h : d.IsNamed) : ';' ∉ d.name := by
  rw [name, List.mem_append]
  rintro (hm | hm)
  · exact (Element.isQualifiedName_name h).not_mem (by decide) hm
  · rcases mem_brackets hm with he | he
    · exact absurd he (by decide)
    · exact absurd he (by decide)

/-- A name starts with a letter, a digit, `_` or `$`. -/
theorem name_head (h : d.IsNamed) : ∃ c rest, d.name = c :: rest ∧ isNameChar c = true := by
  obtain ⟨c, rest, hc, hn⟩ := (Element.isQualifiedName_name h).head
  exact ⟨c, rest ++ brackets d.depth, by rw [name, hc, List.cons_append], hn⟩

/-! ## Names as declarations write them -/

/-- The name of a type as a declaration writes it. -/
def written (d : Descriptor) : WrittenType := ⟨d.element.name, [], d.depth⟩

theorem text_written (d : Descriptor) : d.written.text = d.name := rfl

theorem read_written (d : Descriptor) : d.written.read = d.name := rfl

theorem isShaped_written (h : IsQualifiedName d.element.name) : d.written.IsShaped :=
  ⟨h, Or.inl rfl⟩

theorem isItem_name (h : d.IsNamed) : Text.IsItem ',' d.name := by
  rw [← text_written]
  exact (isShaped_written (Element.isQualifiedName_name h)).isItem (by decide)

theorem varargsComponent?_name (h : d.IsNamed) : TypeText.varargsComponent? d.name = none := by
  rw [← read_written]
  exact TypeText.varargsComponent?_eq_none
    (isShaped_written (Element.isQualifiedName_name h)).isSpelled.getLast?_read

theorem isVarargs_name (h : d.IsNamed) : TypeText.isVarargs d.name = false := by
  rw [TypeText.isVarargs, varargsComponent?_name h]
  rfl

theorem varargsAsArray_name (h : d.IsNamed) : TypeText.varargsAsArray d.name = d.name := by
  rw [TypeText.varargsAsArray, varargsComponent?_name h]

/-! ## Expansion -/

/-- **The name of a type expands to itself**, unless it spells a run of primitive types. -/
theorem expand_name (h : d.IsNamed) (hdist : d.IsDistinct) : expand d.name = d.name := by
  obtain ⟨c, rest, hc, hn⟩ := name_head h
  have hmark : isExpansionMark c = false := by
    rw [isExpansionMark, Bool.or_eq_false_iff, beq_eq_false_iff_ne, beq_eq_false_iff_ne]
    exact ⟨ne_of_isNameChar hn (by decide), ne_of_isNameChar hn (by decide)⟩
  refine expand_eq_self_iff.mpr ⟨fun x hx => ?_, fun p hp => ?_, fun name hname => ?_⟩
  · rw [hc] at hx
    exact Option.some.inj hx ▸ hmark
  · -- A name of one character is that of a class without brackets.
    obtain ⟨x, hx, hcode⟩ := Element.exists_not_code hdist
    have hx' : x ∈ d.name := by
      unfold name
      exact List.mem_append_left _ hx
    rw [hp, List.mem_singleton] at hx'
    rw [hx', Primitive.ofCode?_code] at hcode
    cases hcode
  · exact semicolon_not_mem_name h (by simp [hname])

/-! ## Lists of names -/

/-- The names of types, as a list between parentheses holds them. -/
def joinedNames (ds : List Descriptor) : Text := ", ".toList.intercalate (ds.map name)

theorem mem_joinedNames {ds : List Descriptor} {c : Char} (hc : c ∈ joinedNames ds) :
    c = ',' ∨ c = ' ' ∨ ∃ d ∈ ds, c ∈ d.name := by
  rcases mem_or_exists_of_mem_intercalate hc with hsep | ⟨piece, hp, hm⟩
  · rcases List.mem_cons.mp hsep with hsep | hsep
    · exact Or.inl hsep
    · exact Or.inr (Or.inl (List.mem_singleton.mp hsep))
  · obtain ⟨d, hd, rfl⟩ := List.mem_map.mp hp
    exact Or.inr (Or.inr ⟨d, hd, hm⟩)

theorem splitTopLevel_joinedNames {ds : List Descriptor} (h : ∀ d ∈ ds, d.IsNamed) :
    Text.splitTopLevel ',' (joinedNames ds) = ds.map name := by
  refine Text.splitTopLevel_commas fun item hi => ?_
  obtain ⟨d, hd, rfl⟩ := List.mem_map.mp hi
  exact isItem_name (h d hd)

/-- **A list of names is no run of encodings**, unless it is empty. -/
theorem ofRun_joinedNames_ne_ok {ds types : List Descriptor} (hne : ds ≠ [])
    (h : ∀ d ∈ ds, d.IsNamed) (hno : ∀ d ∈ ds, d.IsNoRun) :
    ofRun (joinedNames ds) ≠ .ok types := by
  intro hok
  have hnot : ∀ c, c ≠ ',' → c ≠ ' ' → (∀ d ∈ ds, c ∉ d.name) → c ∉ joinedNames ds := by
    intro c h1 h2 h3 hc
    rcases mem_joinedNames hc with hc | hc | ⟨d, hd, hc⟩
    · exact h1 hc
    · exact h2 hc
    · exact h3 d hd hc
  have hslash : '/' ∉ joinedNames ds := hnot _ (by decide) (by decide) fun d hd =>
    (isTypeText_name (h d hd)).not_mem (by decide)
  have hsemi : ';' ∉ joinedNames ds := hnot _ (by decide) (by decide) fun d hd =>
    semicolon_not_mem_name (h d hd)
  obtain ⟨hrun, hfields⟩ := ofRun_eq_ok_iff.mp hok
  rw [Text.dotted_eq_self hslash] at hrun
  -- The first name holds a character that is no letter of a primitive field type.
  obtain ⟨d, rest, rfl⟩ := List.exists_cons_of_ne_nil hne
  have hd := h d List.mem_cons_self
  obtain ⟨c, hc, hletter⟩ := Element.exists_not_fieldLetter (hno d List.mem_cons_self)
  have hbracket : c ≠ '[' := by
    rintro rfl
    exact (Element.isQualifiedName_name hd).not_mem (by decide) hc
  have hm : c ∈ types.flatMap encode := by
    rw [← hrun]
    exact mem_intercalate_of_mem (List.mem_cons_self) (List.mem_append_left _ hc)
  obtain ⟨t, ht, hct⟩ := List.mem_flatMap.mp hm
  rw [encode, List.mem_append] at hct
  rcases hct with hct | hct
  · exact hbracket (List.eq_of_mem_replicate hct)
  · cases he : t.element with
    | primitive p =>
      have hp : p ≠ .void := by
        have hfield := hfields t ht
        rwa [IsField, he] at hfield
      rw [he, Element.encode, List.mem_singleton] at hct
      exact hletter (hct ▸ Primitive.code_mem_fieldLetters hp)
    | reference n =>
      refine hsemi ?_
      rw [hrun]
      refine List.mem_flatMap.mpr ⟨t, ht, ?_⟩
      rw [encode, he, Element.encode]
      simp

/-- The empty list is the same text in names and in encodings, and there is no other such list. -/
theorem eq_nil_of_ofRun_joinedNames {ds types : List Descriptor} (h : ∀ d ∈ ds, d.IsNamed)
    (hno : ∀ d ∈ ds, d.IsNoRun) (hok : ofRun (joinedNames ds) = .ok types) :
    ds = [] ∧ types = [] := by
  by_cases hnil : ds = []
  · subst hnil
    rw [joinedNames, List.map_nil, List.intercalate_nil, ofRun] at hok
    cases hok
    exact ⟨rfl, rfl⟩
  · exact absurd hok (ofRun_joinedNames_ne_ok hnil h hno)

end Descriptor

end JvmSignature
