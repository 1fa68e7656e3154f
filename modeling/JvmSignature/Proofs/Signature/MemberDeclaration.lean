import JvmSignature.Proofs.Descriptor.Naming
import JvmSignature.Proofs.Resolver.SelfLookup
import JvmSignature.Proofs.Signature.Declaration
import JvmSignature.Proofs.Signature.Ranking

/-!
# Members are read from their own declarations

A member prints its declaration, and the reader of declarations gives back what was printed: the
keywords give the modifier bits, the name behind the class gives the member, and dots at the end give
the last pair of brackets. So a member has the highest score in its own declaration, and is found
among any lines that hold it.

The names must be well-formed, and what is printed first must not be read as a modifier.
-/

namespace JvmSignature

/-! ## Keywords -/

namespace AccessFlags

/-- A single bit is set or not. -/
theorem and_twoPow_eq (flags : AccessFlags) (i : Nat) :
    flags &&& BitVec.twoPow 16 i =
      if flags.has (BitVec.twoPow 16 i) then BitVec.twoPow 16 i else 0 := by
  by_cases h : flags &&& BitVec.twoPow 16 i = 0
  · simp [has, h]
  · rw [if_pos (by simpa [has] using h)]
    rw [BitVec.and_twoPow] at h ⊢
    split at h
    · next hbit => rw [if_pos hbit]
    · exact absurd rfl h

/-- The words of the bits that are set. -/
def keywordWords (flags : AccessFlags) : List Text :=
  (keywords.filter fun k => has flags k.2).map Prod.fst

theorem isModifier_of_mem_keywordWords {flags : AccessFlags} {w : Text}
    (h : w ∈ flags.keywordWords) : Declaration.IsModifier w := by
  obtain ⟨k, hk, rfl⟩ := List.mem_map.mp h
  exact List.mem_cons_of_mem _ (List.mem_map_of_mem (List.mem_of_mem_filter hk))

theorem toKeywords_eq_nil_iff {flags : AccessFlags} :
    flags.toKeywords = [] ↔ flags.keywordWords = [] := by
  have htext : flags.toKeywords = [' '].intercalate flags.keywordWords := rfl
  rw [htext]
  refine ⟨fun h => List.eq_nil_iff_forall_not_mem.mpr fun w hw => ?_, fun h => by rw [h]; rfl⟩
  obtain ⟨c, s, rfl, -⟩ := (isModifier_of_mem_keywordWords hw).isWord.item.head
  have hc : c ∈ [' '].intercalate flags.keywordWords := mem_intercalate_of_mem hw List.mem_cons_self
  rw [h] at hc
  cases hc

end AccessFlags

namespace Declaration

open AccessFlags (keywords has)

/-- The bits of the words of some single bits are those bits. -/
theorem bits_filter {flags : AccessFlags} {ks : List (Text × AccessFlags)}
    (h : ∀ k ∈ ks, AccessFlags.ofKeyword? k.1 = some k.2 ∧ ∃ i < 16, k.2 = BitVec.twoPow 16 i) :
    bits ((ks.filter fun k => has flags k.2).map Prod.fst) =
      flags &&& ks.foldr (fun k mask => k.2 ||| mask) 0 := by
  induction ks with
  | nil => simp [bits]
  | cons k ks ih =>
    obtain ⟨⟨hword, i, -, hbit⟩, hrest⟩ := List.forall_mem_cons.mp h
    have hand := AccessFlags.and_twoPow_eq flags i
    rw [← hbit] at hand
    rw [List.foldr_cons, BitVec.and_or_distrib_left, ← ih hrest, hand]
    by_cases hk : has flags k.2 = true
    · rw [List.filter_cons_of_pos (by simpa using hk), List.map_cons, if_pos hk]
      simp [bits, hword]
    · rw [List.filter_cons_of_neg (by simpa using hk), if_neg hk]
      simp

/-- **The keywords of a flag word are read as its modifier bits.** -/
theorem bits_keywordWords (flags : AccessFlags) :
    bits flags.keywordWords = flags &&& AccessFlags.modifiers := by
  have hbits : ∀ k ∈ keywords,
      AccessFlags.ofKeyword? k.1 = some k.2 ∧ ∃ i < 16, k.2 = BitVec.twoPow 16 i := by decide
  have hmask : AccessFlags.modifiers = keywords.foldr (fun k mask => k.2 ||| mask) 0 := by decide
  rw [hmask]
  exact bits_filter hbits

end Declaration

/-! ## Members -/

namespace Member

/-- A member as the parts of a signature. -/
def parts (m : Member) : Parts where
  className := m.className
  memberName := m.name
  modifier := m.modifier
  paramTypes := m.paramTypes
  returnType := m.returnType
  typeVariables := Table.empty
  isVarargs := m.isVarargs

/-- The declaration of a member holds its name. -/
theorem name_infix_declaration (m : Member) : m.name <:+: m.declaration := by
  obtain ⟨before, hhead⟩ : ∃ before, m.headText = before ++ m.name := by
    unfold headText
    split
    · exact ⟨[], rfl⟩
    · exact ⟨m.returnType ++ ' ' :: m.className ++ ['.'], by simp⟩
  rw [declaration, hhead]
  exact ⟨_ ++ before, '(' :: (", ".toList.intercalate m.paramTexts ++ [')']), by simp; rfl⟩

/-- A line that is read as a member has the highest score for it. -/
theorem lineScore_of_parts {m : Member} {line : Text} (hname : m.name <:+: line)
    (h : Declaration.parts? m.className line = some m.parts) :
    m.lineScore line = m.paramTypes.length + 1 := by
  have hagree : ∀ type, m.parts.typeVariables.agree type type = true := by
    intro type
    simp [TypeVariables.agree]
  exact lineScore_of_agree hname h rfl rfl (List.forall₂_same.mpr fun type _ => hagree type)
    (hagree _)

end Member

/-! ## Methods -/

/-- A parameter as it is printed, when it takes a single argument. -/
def Descriptor.writtenParam (d : Descriptor) : WrittenParam := ⟨d.written, false⟩

/-- An array type as it is printed, when its parameter takes any number of arguments. -/
def Descriptor.writtenDots (d : Descriptor) : WrittenParam :=
  ⟨⟨d.element.name, [], d.depth - 1⟩, true⟩

theorem Descriptor.text_writtenParam (d : Descriptor) : d.writtenParam.text = d.name := by
  simp [writtenParam, WrittenParam.text, WrittenParam.suffix, text_written]

theorem Descriptor.read_writtenParam (d : Descriptor) : d.writtenParam.read = d.name := rfl

theorem Descriptor.text_writtenDots {d : Descriptor} (h : d.isArray = true) :
    d.writtenDots.text = Member.varargsText d.name := by
  obtain ⟨e, depth⟩ := d
  cases depth with
  | zero => cases h
  | succ n =>
    have hname : name ⟨e, n + 1⟩ = e.name ++ brackets n ++ "[]".toList := by
      simp [name, brackets_concat]
    rw [Member.varargsText, Text.isSuffixOf?_eq_some_iff.mpr hname]
    rfl

theorem Descriptor.read_writtenDots {d : Descriptor} (h : d.isArray = true) :
    d.writtenDots.read = d.name := by
  obtain ⟨e, depth⟩ := d
  cases depth with
  | zero => cases h
  | succ n => rfl

namespace Method

/-- Whether a method can be told from what it prints. -/
structure IsDeclarable (m : Method) : Prop where
  className : IsQualifiedName m.className
  className_ne : ¬ Declaration.IsModifier m.className
  name : m.name = m.className ∧ m.returnType = .primitive .void ∨
    m.name ≠ m.className ∧ IsIdentifier m.name
  modifier : m.modifier &&& AccessFlags.modifiers = m.modifier
  params : ∀ p ∈ m.params, IsQualifiedName p.element.name
  returnType : IsQualifiedName m.returnType.element.name
  returnType_ne : ¬ Declaration.IsModifier m.returnType.element.name
  varargs : m.isVarargs = true → ∃ p, m.params.getLast? = some p ∧ p.isArray = true

/-- The parameters as they are printed. -/
def writtenParams (m : Method) : List WrittenParam :=
  if m.isVarargs then
    m.params.dropLast.map Descriptor.writtenParam ++
      m.params.getLast?.toList.map Descriptor.writtenDots
  else m.params.map Descriptor.writtenParam

/-- The declaration that a method prints. -/
def written (m : Method) : WrittenDeclaration where
  modifiers := m.modifier.keywordWords
  typeParameters := []
  returnType? := if m.name = m.className then none else some m.returnType.written
  name := if m.name = m.className then m.className else m.className ++ '.' :: m.name
  params := m.writtenParams
  rest := []

variable {m : Method}

theorem written_name (m : Method) :
    m.written.name = if m.name = m.className then m.className else m.className ++ '.' :: m.name :=
  rfl

theorem written_returnType? (m : Method) :
    m.written.returnType? = if m.name = m.className then none else some m.returnType.written := rfl

/-- Either all parameters are printed by their names, or the last is an array that is printed with
dots. -/
theorem IsDeclarable.writtenParams_cases (h : m.IsDeclarable) :
    (m.isVarargs = false ∧ m.writtenParams = m.params.map Descriptor.writtenParam) ∨
      ∃ init last, m.isVarargs = true ∧ last.isArray = true ∧ m.params = init ++ [last] ∧
        m.writtenParams = init.map Descriptor.writtenParam ++ [last.writtenDots] := by
  cases hv : m.isVarargs with
  | false =>
    refine Or.inl ⟨rfl, ?_⟩
    simp [writtenParams, hv]
  | true =>
    obtain ⟨last, hlast, harray⟩ := h.varargs hv
    obtain ⟨init, hinit⟩ := List.getLast?_eq_some_iff.mp hlast
    refine Or.inr ⟨init, last, rfl, harray, hinit, ?_⟩
    simp [writtenParams, hv, hinit]

/-- The parameters are printed as those of the member. -/
theorem IsDeclarable.text_writtenParams (h : m.IsDeclarable) :
    m.writtenParams.map WrittenParam.text = m.member.paramTexts := by
  have htext : WrittenParam.text ∘ Descriptor.writtenParam = Descriptor.name :=
    funext Descriptor.text_writtenParam
  rcases h.writtenParams_cases with ⟨hv, hparams⟩ | ⟨init, last, hv, harray, hinit, hparams⟩
  · simp [hparams, Member.paramTexts, Method.member, hv, htext]
  · simp [hparams, Member.paramTexts, Method.member, hv, hinit, htext,
      Descriptor.text_writtenDots harray]

/-- The parameters are read as those of the member. -/
theorem IsDeclarable.read_writtenParams (h : m.IsDeclarable) :
    m.writtenParams.map WrittenParam.read = m.member.paramTypes := by
  have hread : WrittenParam.read ∘ Descriptor.writtenParam = Descriptor.name :=
    funext Descriptor.read_writtenParam
  rcases h.writtenParams_cases with ⟨-, hparams⟩ | ⟨init, last, -, harray, hinit, hparams⟩
  · simp [hparams, Method.member, hread]
  · simp [hparams, Method.member, hinit, hread, Descriptor.read_writtenDots harray]

/-- Dots are seen where the last parameter takes any number of arguments. -/
theorem IsDeclarable.dots_writtenParams (h : m.IsDeclarable) :
    m.writtenParams.getLast?.any WrittenParam.dots = m.isVarargs := by
  rcases h.writtenParams_cases with ⟨hv, hparams⟩ | ⟨init, last, hv, -, -, hparams⟩
  · rw [hparams, hv, List.getLast?_map]
    cases m.params.getLast? <;> rfl
  · rw [hparams, hv, List.getLast?_concat]
    rfl

theorem IsDeclarable.isShaped_writtenParams (h : m.IsDeclarable) :
    ∀ p ∈ m.writtenParams, p.type.IsShaped ∧ p.type.arguments = [] := by
  intro p hp
  have hparams := h.params
  rcases h.writtenParams_cases with ⟨-, hw⟩ | ⟨init, last, -, -, hinit, hw⟩
  · rw [hw] at hp
    obtain ⟨d, hd, rfl⟩ := List.mem_map.mp hp
    exact ⟨Descriptor.isShaped_written (hparams d hd), rfl⟩
  · rw [hw, List.mem_append, List.mem_singleton] at hp
    rw [hinit] at hparams
    rcases hp with hp | rfl
    · obtain ⟨d, hd, rfl⟩ := List.mem_map.mp hp
      exact ⟨Descriptor.isShaped_written (hparams d (by simp [hd])), rfl⟩
    · exact ⟨⟨hparams last (by simp), Or.inl rfl⟩, rfl⟩

theorem IsDeclarable.isShaped_written (h : m.IsDeclarable) : m.written.IsShaped where
  modifiers _ := AccessFlags.isModifier_of_mem_keywordWords
  typeParameters _ hp := by cases hp
  returnType t ht := by
    obtain ⟨-, rfl⟩ : m.name ≠ m.className ∧ m.returnType.written = t := by
      simpa [written_returnType?] using ht
    exact ⟨Descriptor.isShaped_written h.returnType, h.returnType_ne⟩
  name := by
    rcases h.name with ⟨hc, -⟩ | ⟨hc, hname⟩
    · rw [written_name, if_pos hc]
      exact h.className
    · rw [written_name, if_neg hc]
      exact h.className.append_dot hname.isQualifiedName
  constructor hr := by
    have hc : m.name = m.className := by
      simpa [written_returnType?] using hr
    rw [written_name, if_pos hc]
    exact h.className_ne
  params p hp := (h.isShaped_writtenParams p hp).1
  rest := by simp [Method.written]

/-- Nothing that is printed is an escaped bracket. -/
theorem IsDeclarable.isUnescaped_text (h : m.IsDeclarable) : m.written.text.IsUnescaped := by
  refine Text.isUnescaped_of_notMem (h.isShaped_written.ampersand_notMem_text rfl ?_ ?_ ?_)
  · intro t ht
    obtain ⟨-, rfl⟩ : m.name ≠ m.className ∧ m.returnType.written = t := by
      simpa [written_returnType?] using ht
    rfl
  · exact fun p hp => (h.isShaped_writtenParams p hp).2
  · simp [Method.written]

/-- What is printed is the declaration of the member. -/
theorem IsDeclarable.text_written (h : m.IsDeclarable) : m.written.text = m.member.declaration := by
  have hkeywords : (if m.modifier.toKeywords = [] then [] else m.modifier.toKeywords ++ [' ']) =
      if m.modifier.keywordWords = [] then []
      else [' '].intercalate m.modifier.keywordWords ++ [' '] := by
    simp only [AccessFlags.toKeywords_eq_nil_iff]
    rfl
  have hhead : [' '].intercalate m.written.nameWords = m.member.headText := by
    by_cases hc : m.name = m.className
    · simp [WrittenDeclaration.nameWords, written_name, written_returnType?, Member.headText,
        Member.isConstructor, Method.member, hc]
    · simp [WrittenDeclaration.nameWords, written_name, written_returnType?, Member.headText,
        Member.isConstructor, Method.member, hc, Descriptor.text_written]
  have hwords : m.written.words = m.modifier.keywordWords ++ m.written.nameWords := rfl
  have hparams : m.written.paramsText = ", ".toList.intercalate m.member.paramTexts := by
    rw [← h.text_writtenParams]
    rfl
  have hmodifier : m.member.modifier = m.modifier := rfl
  rw [WrittenDeclaration.text, Member.declaration, hwords,
    Text.intercalate_append _ m.written.nameWords_ne_nil, hhead, hparams, hmodifier, hkeywords]
  simp [Method.written]

/-- What is printed is read as the member. -/
theorem IsDeclarable.parts_written (h : m.IsDeclarable) :
    m.written.parts m.className = m.member.parts := by
  have hname : declaredName m.className (Declaration.memberName m.className m.written.name) =
      m.name := by
    rcases h.name with ⟨hc, -⟩ | ⟨hc, hname⟩
    · rw [written_name, if_pos hc, Declaration.memberName_self,
        Declaration.declaredName_of_isQualifiedName h.className, hc]
    · rw [written_name, if_neg hc, Declaration.memberName_append hname,
        Declaration.declaredName_of_isQualifiedName hname.isQualifiedName]
  have hmodifier : Declaration.bits m.written.modifiers = m.modifier :=
    (Declaration.bits_keywordWords m.modifier).trans h.modifier
  have hreturn : (m.written.returnType?.map WrittenType.read).getD "void".toList =
      m.returnType.name := by
    rcases h.name with ⟨hc, hvoid⟩ | ⟨hc, -⟩
    · rw [written_returnType?, if_pos hc, hvoid]
      rfl
    · rw [written_returnType?, if_neg hc]
      rfl
  have hparams : m.written.params = m.writtenParams := rfl
  rw [WrittenDeclaration.parts, hname, hmodifier, hreturn, hparams, h.read_writtenParams,
    h.dots_writtenParams]
  rfl

/-- **A method is read from the declaration that it prints.** -/
theorem IsDeclarable.parts?_declaration (h : m.IsDeclarable) :
    Declaration.parts? m.className m.member.declaration = some m.member.parts := by
  rw [← h.text_written, ← h.parts_written]
  exact h.isShaped_written.parts?_text m.className h.isUnescaped_text (Text.isEscapeOf_self _)

end Method

/-! ## Classes -/

/-- Whether a method stub of a class has well-formed names. -/
structure MethodStub.IsDeclarable (className : Text) (s : MethodStub) : Prop where
  name : IsMemberName s.name
  /-- Only constructors are called like the class. -/
  name_ne : s.name ≠ className
  params : ∀ d, MethodDescriptor.ofText s.descriptor = .ok d →
    ∀ p ∈ d.params, IsQualifiedName p.element.name
  returnType : ∀ d, MethodDescriptor.ofText s.descriptor = .ok d →
    IsQualifiedName d.returnType.element.name ∧
      ¬ Declaration.IsModifier d.returnType.element.name
  constructor : ∀ d, MethodDescriptor.ofText s.descriptor = .ok d →
    s.name = constructorName → d.returnType = .primitive .void
  varargs : ∀ d, MethodDescriptor.ofText s.descriptor = .ok d →
    s.accessFlags.has .varargsFlag = true → ∃ p, d.params.getLast? = some p ∧ p.isArray = true

namespace ClassStub

/-- Whether a class and the methods that signatures can name have well-formed names. -/
structure IsDeclarable (c : ClassStub) : Prop where
  className : IsQualifiedName c.className
  className_ne : ¬ Declaration.IsModifier c.className
  methods : ∀ s ∈ c.methods, s.name ≠ initializerName → s.IsDeclarable c.className

/-- The methods of such a class can be told from what they print. -/
theorem IsDeclarable.of_mem_declared {c : ClassStub} (h : c.IsDeclarable) {m : Method}
    (hm : m ∈ c.declared) : m.IsDeclarable := by
  obtain ⟨s, hs, hmethod⟩ := List.mem_filterMap.mp hm
  obtain ⟨hinit, d, hd, rfl⟩ := MethodStub.method?_eq_some_iff.mp hmethod
  have hstub := h.methods s hs hinit
  refine
    { className := h.className
      className_ne := h.className_ne
      name := ?_
      modifier := ?_
      params := hstub.params d hd
      returnType := (hstub.returnType d hd).1
      returnType_ne := (hstub.returnType d hd).2
      varargs := hstub.varargs d hd }
  · rcases hstub.name with hname | hname
    · have hdeclared : declaredName c.className s.name = s.name :=
        Declaration.declaredName_of_isQualifiedName hname.isQualifiedName c.className
      refine Or.inr ⟨?_, ?_⟩
      · simpa [hdeclared] using hstub.name_ne
      · simpa [hdeclared] using hname
    · exact Or.inl ⟨if_pos hname, hstub.constructor d hd hname⟩
  · simp only [BitVec.and_assoc, BitVec.and_self]

/--
**Every method of a registered class is read from its own declaration**, with nothing lost: the
parts are those of the member. So the member gets the highest score from any lines that hold its
declaration.

It is enough that the class and the return types are not called like a modifier. What a declaration
prints in other places is never taken for one.
-/
theorem IsDeclarable.ofDeclaration_declaration {c : ClassStub} (h : c.IsDeclarable)
    (r : Registry) :
    ∀ m ∈ (r.register c).methods c.className,
      Parts.ofDeclaration m.className m.member.declaration = .ok m.member.parts ∧
      (∀ lines, m.member.declaration ∈ lines →
        (m.member.bestLine lines).score = m.params.length + 1) ∧
      ∀ lines, (m.member.bestLine lines).score ≤ m.params.length + 1 := by
  intro m hm
  have hmethods : (r.register c).methods c.className = c.declared := by
    rw [Registry.methods, Registry.register, Table.find?_insert, if_pos rfl, Option.getD_some]
  rw [hmethods] at hm
  have hread := (h.of_mem_declared hm).parts?_declaration
  have hlength : m.member.paramTypes.length = m.params.length := List.length_map _
  refine ⟨by rw [Parts.ofDeclaration, hread], fun lines hlines => ?_, fun lines => ?_⟩
  · have hfull := Member.lineScore_of_parts m.member.name_infix_declaration hread
    rw [(Member.bestLine_of_full hlines hfull).1, hlength]
  · rw [← hlength]
    exact m.member.score_bestLine_le lines

/-- A static method with dots in a class with a constructor. -/
theorem IsDeclarable.ofDeclaration_declaration_varargs :
    let c : ClassStub := ⟨"a/B".toList, 0x0001, none, [],
      [⟨constructorName, "(J)V".toList, 0x0001⟩, ⟨"of".toList, "(I[[La/B;)La/B;".toList, 0x0089⟩]⟩
    let m : Method := ⟨"a.B".toList, "of".toList, 0x0009,
      [.primitive .int, ⟨.reference "a.B".toList, 2⟩], ⟨.reference "a.B".toList, 0⟩, true⟩
    let line := "public static a.B a.B.of(int, a.B[]...)".toList
    c.IsDeclarable ∧ m ∈ (Registry.empty.register c).methods c.className ∧
      m.member.declaration = line ∧ Parts.ofDeclaration "a.B".toList line = .ok m.member.parts ∧
      (m.member.bestLine ["a.B a.B.of(int)".toList, line]).score = 3 := by
  intro c m line
  have hlong : MethodDescriptor.ofText "(J)V".toList = .ok ⟨[.primitive .long], .primitive .void⟩ :=
    MethodDescriptor.ofText_eq_ok_iff.mpr ⟨by decide, by decide, by decide, by decide⟩
  have harray : MethodDescriptor.ofText "(I[[La/B;)La/B;".toList = .ok ⟨m.params, m.returnType⟩ :=
    MethodDescriptor.ofText_eq_ok_iff.mpr ⟨by decide, by decide, by decide, by decide⟩
  have hc : c.IsDeclarable := by
    refine ⟨by decide +kernel, by decide, ?_⟩
    intro s hs _
    rcases List.mem_pair.mp hs with rfl | rfl
    · refine ⟨by decide +kernel, by decide, ?_, ?_, ?_, ?_⟩
      all_goals
        intro d hd
        obtain rfl := Except.ok.inj (hlong.symm.trans hd)
        decide +kernel
    · refine ⟨by decide +kernel, by decide, ?_, ?_, ?_, ?_⟩
      all_goals
        intro d hd
        obtain rfl := Except.ok.inj (harray.symm.trans hd)
      · decide +kernel
      · decide +kernel
      · decide
      · exact fun _ => ⟨⟨.reference "a.B".toList, 2⟩, by decide, by decide⟩
  have hm : m ∈ (Registry.empty.register c).methods c.className := by
    have hdeclared : MethodStub.method? c.className
        ⟨"of".toList, "(I[[La/B;)La/B;".toList, 0x0089⟩ = some m :=
      MethodStub.method?_eq_some_iff.mpr ⟨by decide, _, harray, by decide⟩
    exact List.mem_filterMap.mpr ⟨_, List.mem_cons_of_mem _ List.mem_cons_self, hdeclared⟩
  obtain ⟨hparts, hbest, -⟩ := IsDeclarable.ofDeclaration_declaration hc Registry.empty m hm
  have hline : m.member.declaration = line := by decide
  rw [hline] at hparts hbest
  exact ⟨hc, hm, hline, hparts, hbest _ (by simp)⟩

end ClassStub

end JvmSignature
