import JvmSignature.Proofs.Signature.TypeParameters
import JvmSignature.Signature.Declaration

/-!
# Written declarations

A declaration is a row of words, then parameters in parentheses, then something that does not count.
The words are modifiers, perhaps a list of type variables, perhaps a return type, and the name. The
reader finds the parts that a declaration was put together from (`parts?_text`), with every type as
it is read, and whichever of its angle brackets are escaped.
-/

namespace JvmSignature

namespace Declaration

/-! ## Modifiers -/

/-- The words that are read as modifiers. -/
def modifierWords : List Text := "default".toList :: AccessFlags.keywords.map Prod.fst

/-- Whether a word is read as a modifier. -/
def IsModifier (word : Text) : Prop := word ∈ modifierWords

instance : DecidablePred IsModifier := fun word =>
  inferInstanceAs (Decidable (word ∈ modifierWords))

theorem isModifier_iff {word : Text} :
    IsModifier word ↔ word = "default".toList ∨ (AccessFlags.ofKeyword? word).isSome = true := by
  rw [IsModifier, modifierWords, List.mem_cons, AccessFlags.ofKeyword?, List.lookup_isSome_iff,
    List.mem_map]
  simp only [beq_iff_eq, eq_comm (b := word)]

/-- The bits of a row of modifiers. The word `default` has none. -/
def bits (words : List Text) : AccessFlags :=
  words.foldr (fun word flags => (AccessFlags.ofKeyword? word).getD 0 ||| flags) 0

theorem IsModifier.isIdentifier {word : Text} (h : IsModifier word) : IsIdentifier word := by
  have hwords : ∀ w ∈ modifierWords, IsIdentifier w := by decide +kernel
  exact hwords word h

/-- No modifier starts with an angle bracket. -/
theorem not_isModifier_of_head {word : Text} (h : word.head? = some '<') : ¬ IsModifier word :=
  fun hm => hm.isIdentifier.not_mem (by decide) (List.mem_of_head? h)

/-- A type is no modifier if its name is none. -/
theorem not_isModifier_text {t : WrittenType} (h : t.IsShaped) (hname : ¬ IsModifier t.name) :
    ¬ IsModifier t.text := by
  intro hm
  have hnot : ∀ c ∈ delimiters, c ∉ t.text := fun c hc => hm.isIdentifier.not_mem hc
  have hdepth : t.depth = 0 := by
    cases hd : t.depth with
    | zero => rfl
    | succ n =>
      have hbracket : '[' ∈ t.text := by simp [WrittenType.text, hd, Descriptor.brackets]
      exact absurd hbracket (hnot '[' (by decide))
  rcases h.arguments with hnil | ⟨inner, harguments, -⟩
  · exact hname (by simpa [WrittenType.text, hnil, hdepth, Descriptor.brackets] using hm)
  · exact hnot '<' (by decide) (by simp [WrittenType.text, harguments])

/-- **The modifiers in front of other words are taken off.** -/
theorem takeModifiers_append {mods words : List Text} (hmods : ∀ w ∈ mods, IsModifier w)
    (hwords : ∀ w, words.head? = some w → ¬ IsModifier w) :
    takeModifiers (mods ++ words) = (bits mods, words) := by
  induction mods with
  | nil =>
    cases words with
    | nil => rfl
    | cons w words =>
      have hw : ¬ IsModifier w := hwords w rfl
      simp only [isModifier_iff, not_or, Bool.not_eq_true, Option.isSome_eq_false_iff,
        Option.isNone_iff_eq_none] at hw
      rw [List.nil_append, takeModifiers, hw.2, if_neg hw.1]
      rfl
  | cons w mods ih =>
    obtain ⟨hw, hrest⟩ := List.forall_mem_cons.mp hmods
    have hbits : bits (w :: mods) = (AccessFlags.ofKeyword? w).getD 0 ||| bits mods := rfl
    rw [List.cons_append, takeModifiers, ih hrest, hbits]
    cases hk : AccessFlags.ofKeyword? w with
    | some bit => rfl
    | none =>
      rcases isModifier_iff.mp hw with rfl | hw
      · simp
      · rw [hk] at hw
        cases hw

/-! ## Names of members -/

theorem memberName_self (className : Text) : memberName className className = className := if_pos rfl

/-- A method may be written with its class before it. -/
theorem memberName_append {className name : Text} (h : IsIdentifier name) :
    memberName className (className ++ '.' :: name) = name := by
  have hne : className ++ '.' :: name ≠ className := by simp
  rw [memberName, if_neg hne, simpleName,
    Text.cutAtLast?_eq_some_iff.mpr ⟨rfl, h.not_mem (by decide)⟩]

theorem memberName_of_isIdentifier {name : Text} (h : IsIdentifier name) (className : Text) :
    memberName className name = name := by
  rw [memberName]
  split
  · next he => rw [he]
  · rw [simpleName, Text.cutAtLast?_eq_none_iff.mpr (h.not_mem (by decide))]

/-- No qualified name is that of constructors in class files. -/
theorem declaredName_of_isQualifiedName {name : Text} (h : IsQualifiedName name)
    (className : Text) : declaredName className name = name := by
  refine if_neg ?_
  rintro rfl
  exact h.not_mem (c := '<') (by decide) (by decide)

/-- The member of a declaration is a method by its simple name, or a constructor by that of its
class. -/
theorem declaredName_memberName {className name : Text}
    (h : IsIdentifier name ∨ name = className ∧ IsQualifiedName className) :
    declaredName className (memberName className name) = name := by
  rcases h with hname | ⟨rfl, hclass⟩
  · rw [memberName_of_isIdentifier hname, declaredName_of_isQualifiedName hname.isQualifiedName]
  · rw [memberName_self, declaredName_of_isQualifiedName hclass]

/-! ## The end of a declaration -/

theorem dropWhile_append_cons {p : Char → Bool} {c : Char} (h : p c = false) (s t : Text) :
    (s ++ c :: t).dropWhile p = s.dropWhile p ++ c :: t := by
  induction s with
  | nil => exact List.dropWhile_cons_of_neg (by simp [h])
  | cons d s ih =>
    by_cases hd : p d = true
    · rw [List.cons_append, List.dropWhile_cons_of_pos hd, List.dropWhile_cons_of_pos hd, ih]
    · rw [List.cons_append, List.dropWhile_cons_of_neg hd, List.dropWhile_cons_of_neg hd,
        List.cons_append]

/-- What is dropped from the end of a text reaches at most to a character that is kept. -/
theorem dropEnd_append_cons {p : Char → Bool} {c : Char} (h : p c = false) (s t : Text) :
    ∃ t', t' <+: t ∧ ((s ++ c :: t).reverse.dropWhile p).reverse = s ++ c :: t' := by
  refine ⟨(t.reverse.dropWhile p).reverse, ?_, ?_⟩
  · rw [← List.reverse_suffix, List.reverse_reverse]
    exact List.dropWhile_suffix p
  · have hr : (s ++ c :: t).reverse = t.reverse ++ c :: s.reverse := by simp
    rw [hr, dropWhile_append_cons h]
    simp

/-- The semicolons and blanks at the end are taken from what follows the parameters. -/
theorem withoutTerminator_append {s : Text} (hs : ∃ c t, s = c :: t ∧ isBlank c = false)
    (rest : Text) :
    ∃ rest', rest' <+: rest ∧ withoutTerminator (s ++ ')' :: rest) = s ++ ')' :: rest' := by
  have hblank : isBlank ')' = false := by decide
  have hstart : Text.trimStart (s ++ ')' :: rest) = s ++ ')' :: rest := by
    obtain ⟨c, t, rfl, hc⟩ := hs
    exact List.dropWhile_cons_of_neg (by simp [hc])
  obtain ⟨t₁, h₁, he₁⟩ := dropEnd_append_cons hblank s rest
  obtain ⟨t₂, h₂, he₂⟩ := dropEnd_append_cons (p := (· == ';')) (c := ')') rfl s t₁
  obtain ⟨t₃, h₃, he₃⟩ := dropEnd_append_cons hblank s t₂
  have hend : ∀ t, Text.trimEnd t = (t.reverse.dropWhile isBlank).reverse := fun _ => rfl
  refine ⟨t₃, h₃.trans (h₂.trans h₁), ?_⟩
  rw [withoutTerminator, Text.trim, hstart, hend (s ++ ')' :: rest), he₁, he₂, hend, he₃]

/-! ## Words -/

/-- Whether a text may be one of the words of a declaration. -/
structure IsWord (s : Text) : Prop where
  item : Text.IsItem ' ' s
  nested : IsNested s

theorem isWord_name {s : Text} (h : IsQualifiedName s) : IsWord s :=
  ⟨h.isItem (by decide), h.isNested⟩

theorem isWord_type {t : WrittenType} (h : t.IsShaped) : IsWord t.text :=
  ⟨h.isItem (by decide), h.isNested_text⟩

theorem isWord_typeParameters {ps : List TypeParameter} (h : ∀ p ∈ ps, p.IsShaped) :
    IsWord (TypeParameter.listText ps) where
  item := by
    have hinner := TypeParameter.isNested_inner h
    exact ⟨Text.isPiece_group hinner.balanced, ⟨'<', _, rfl, by decide⟩,
      ⟨'<' :: _, '>', rfl, by decide⟩⟩
  nested := (TypeParameter.isNested_inner h).group

theorem IsModifier.isWord {word : Text} (h : IsModifier word) : IsWord word :=
  isWord_name h.isIdentifier.isQualifiedName

end Declaration

/-! ## Declarations -/

/-- A declaration by the parts that it is put together from. -/
structure WrittenDeclaration where
  modifiers : List Text
  typeParameters : List TypeParameter
  /-- The return type; constructors have none. -/
  returnType? : Option WrittenType
  name : Text
  params : List WrittenParam
  /-- What follows the parameters. -/
  rest : Text

namespace WrittenDeclaration

open Declaration (IsModifier IsWord)

/-- The list of type variables, if there are any. -/
def typeWords (d : WrittenDeclaration) : List Text :=
  match d.typeParameters with
  | [] => []
  | p :: ps => [TypeParameter.listText (p :: ps)]

/-- The return type and the name. -/
def nameWords (d : WrittenDeclaration) : List Text :=
  match d.returnType? with
  | some t => [t.text, d.name]
  | none => [d.name]

theorem nameWords_ne_nil (d : WrittenDeclaration) : d.nameWords ≠ [] := by
  rw [nameWords]
  cases d.returnType? <;> simp

/-- What stands before the parameters. -/
def words (d : WrittenDeclaration) : List Text := d.modifiers ++ (d.typeWords ++ d.nameWords)

def paramsText (d : WrittenDeclaration) : Text :=
  ", ".toList.intercalate (d.params.map WrittenParam.text)

/-- The declaration as it is written. -/
def text (d : WrittenDeclaration) : Text :=
  [' '].intercalate d.words ++ '(' :: (d.paramsText ++ ')' :: d.rest)

/-- A declaration holds its name. -/
theorem name_infix_text (d : WrittenDeclaration) : d.name <:+: d.text := by
  obtain ⟨before, hnames⟩ : ∃ before, d.nameWords = before ++ [d.name] := by
    unfold nameWords
    split
    · exact ⟨[_], rfl⟩
    · exact ⟨[], rfl⟩
  have hwords : d.words = (d.modifiers ++ d.typeWords ++ before) ++ [d.name] := by
    simp [words, hnames]
  rw [text, hwords, Text.intercalate_append _ (by simp), List.intercalate_singleton]
  exact ⟨_, _, rfl⟩

/-- Whether the parts of a declaration have the shape of such, and only its modifiers are read as
modifiers. -/
structure IsShaped (d : WrittenDeclaration) : Prop where
  modifiers : ∀ w ∈ d.modifiers, IsModifier w
  typeParameters : ∀ p ∈ d.typeParameters, p.IsShaped
  returnType : ∀ t, d.returnType? = some t → t.IsShaped ∧ ¬ IsModifier t.name
  name : IsQualifiedName d.name
  constructor : d.returnType? = none → ¬ IsModifier d.name
  params : ∀ p ∈ d.params, p.type.IsShaped
  rest : ')' ∉ d.rest

/-- The parts of a declaration in a class. -/
def parts (d : WrittenDeclaration) (className : Text) : Parts where
  className := className
  memberName := declaredName className (Declaration.memberName className d.name)
  modifier := Declaration.bits d.modifiers
  paramTypes := d.params.map WrittenParam.read
  returnType := (d.returnType?.map WrittenType.read).getD "void".toList
  typeVariables := TypeParameter.erasures d.typeParameters
  isVarargs := d.params.getLast?.any WrittenParam.dots

variable {d : WrittenDeclaration}

/-! ### Words -/

theorem IsShaped.isWord (h : d.IsShaped) : ∀ w ∈ d.words, IsWord w := by
  intro w hw
  rw [words, List.mem_append, List.mem_append] at hw
  rcases hw with hw | hw | hw
  · exact (h.modifiers w hw).isWord
  · unfold typeWords at hw
    split at hw
    · cases hw
    · next hps =>
      rw [List.mem_singleton.mp hw]
      exact Declaration.isWord_typeParameters (hps ▸ h.typeParameters)
  · unfold nameWords at hw
    split at hw
    · next t ht =>
      rcases List.mem_pair.mp hw with rfl | rfl
      · exact Declaration.isWord_type (h.returnType t ht).1
      · exact Declaration.isWord_name h.name
    · rw [List.mem_singleton.mp hw]
      exact Declaration.isWord_name h.name

/-- What follows the type variables is neither a modifier nor another list of them. -/
theorem IsShaped.head?_nameWords (h : d.IsShaped) {w : Text}
    (hw : d.nameWords.head? = some w) : ¬ IsModifier w ∧ w.head? ≠ some '<' := by
  have hless : ∀ {s t : Text}, IsQualifiedName s → (s ++ t).head? ≠ some '<' := by
    intro s t hs hhead
    obtain ⟨c, rest, rfl, hc⟩ := hs.head
    exact ne_of_isNameChar hc (by decide) (Option.some.inj hhead)
  unfold nameWords at hw
  split at hw
  · next t ht =>
    obtain rfl : t.text = w := Option.some.inj hw
    obtain ⟨htype, hmodifier⟩ := h.returnType t ht
    exact ⟨Declaration.not_isModifier_text htype hmodifier, hless htype.name⟩
  · next ht =>
    obtain rfl : d.name = w := Option.some.inj hw
    refine ⟨h.constructor ht, ?_⟩
    have hname := hless (t := []) h.name
    rwa [List.append_nil] at hname

/-- The modifiers are taken off. -/
theorem IsShaped.takeModifiers_words (h : d.IsShaped) :
    Declaration.takeModifiers d.words =
      (Declaration.bits d.modifiers, d.typeWords ++ d.nameWords) := by
  refine Declaration.takeModifiers_append h.modifiers fun w hw => ?_
  unfold typeWords at hw
  split at hw
  · exact (h.head?_nameWords hw).1
  · obtain rfl := Option.some.inj hw
    exact Declaration.not_isModifier_of_head (TypeParameter.head?_listText _)

/-- The type variables are taken off. -/
theorem IsShaped.takeTypeVariables_words (h : d.IsShaped) :
    Declaration.takeTypeVariables (d.typeWords ++ d.nameWords) =
      (TypeParameter.erasures d.typeParameters, d.nameWords) := by
  unfold typeWords
  split
  · next hps =>
    rw [List.nil_append, hps]
    cases hn : d.nameWords with
    | nil => rfl
    | cons w names =>
      have hw := h.head?_nameWords (w := w) (by rw [hn]; rfl)
      rw [Declaration.takeTypeVariables, if_neg hw.2]
      rfl
  · next hps =>
    rw [List.singleton_append, Declaration.takeTypeVariables,
      if_pos (TypeParameter.head?_listText _),
      TypeParameter.ofDeclaration_listText (hps ▸ h.typeParameters), hps]

/-- The return type and the name are what is left. -/
theorem IsShaped.returnAndName?_words (h : d.IsShaped) :
    Declaration.returnAndName? d.nameWords =
      some ((d.returnType?.map WrittenType.read).getD "void".toList, d.name) := by
  unfold nameWords
  split
  · next t ht =>
    rw [Declaration.returnAndName?, (h.returnType t ht).1.isSpelled.withoutArguments_text, ht]
    rfl
  · next ht =>
    rw [Declaration.returnAndName?, ht]
    rfl

/-! ### Parameters -/

theorem IsShaped.splitTopLevel_paramsText (h : d.IsShaped) :
    Text.splitTopLevel ',' d.paramsText = d.params.map WrittenParam.text := by
  refine Text.splitTopLevel_commas fun i hi => ?_
  obtain ⟨p, hp, rfl⟩ := List.mem_map.mp hi
  exact WrittenParam.isItem (h.params p hp) (by decide)

/-- The parameters are read without their arguments and with brackets for dots. -/
theorem IsShaped.ofTexts_params (h : d.IsShaped) (className memberName returnType : Text) :
    Parts.ofTexts className memberName
        ((d.params.map WrittenParam.text).map TypeText.withoutArguments) returnType =
      { className := className
        memberName := declaredName className memberName
        modifier := 0
        paramTypes := d.params.map WrittenParam.read
        returnType := returnType
        typeVariables := Table.empty
        isVarargs := d.params.getLast?.any WrittenParam.dots } := by
  have htypes : ((d.params.map WrittenParam.text).map TypeText.withoutArguments).map
      TypeText.varargsAsArray = d.params.map WrittenParam.read := by
    rw [List.map_map, List.map_map]
    exact List.map_congr_left fun p hp => WrittenParam.varargsAsArray_text (h.params p hp).isSpelled
  have hvarargs : ((d.params.map WrittenParam.text).map TypeText.withoutArguments).getLast?.any
      TypeText.isVarargs = d.params.getLast?.any WrittenParam.dots := by
    rw [List.getLast?_map, List.getLast?_map]
    cases hl : d.params.getLast? with
    | none => rfl
    | some p => exact WrittenParam.isVarargs_text (h.params p (List.mem_of_getLast? hl)).isSpelled
  rw [Parts.ofTexts, htypes, hvarargs]

/-! ### The whole -/

/-- A declaration does not start with a blank. -/
theorem IsShaped.head_words (h : d.IsShaped) :
    ∃ c s, [' '].intercalate d.words = c :: s ∧ isBlank c = false := by
  have hne : d.words ≠ [] := by simp [words, d.nameWords_ne_nil]
  obtain ⟨w, ws, hw⟩ := List.exists_cons_of_ne_nil hne
  obtain ⟨c, s, hc, hblank⟩ := (h.isWord w (by simp [hw])).item.head
  by_cases hws : ws = []
  · exact ⟨c, s, by rw [hw, hws, List.intercalate_singleton, hc], hblank⟩
  · refine ⟨c, s ++ [' '] ++ [' '].intercalate ws, ?_, hblank⟩
    rw [hw, List.intercalate_cons_of_ne_nil hws, hc]
    rfl

/-- A declaration is cut at its parentheses. -/
theorem IsShaped.headAndParams?_text (h : d.IsShaped) :
    Declaration.headAndParams? (Declaration.withoutTerminator d.text) =
      some ([' '].intercalate d.words, d.paramsText) := by
  have hopening : '(' ∉ [' '].intercalate d.words := by
    intro hm
    rcases mem_or_exists_of_mem_intercalate hm with hm | ⟨w, hw, hm⟩
    · exact absurd hm (by decide)
    · exact (h.isWord w hw).nested.opening hm
  obtain ⟨c, s, hc, hblank⟩ := h.head_words
  obtain ⟨rest', hstart, hterminator⟩ := Declaration.withoutTerminator_append
    ⟨c, s ++ '(' :: d.paramsText, rfl, hblank⟩ d.rest
  have hclosing : ')' ∉ rest' := fun hm => h.rest (hstart.subset hm)
  have htext : d.text = c :: (s ++ '(' :: d.paramsText) ++ ')' :: d.rest := by
    simp [text, hc]
  have hcut : c :: (s ++ '(' :: d.paramsText) ++ ')' :: rest' =
      [' '].intercalate d.words ++ '(' :: (d.paramsText ++ ')' :: rest') := by
    simp [hc]
  rw [htext, hterminator, hcut, Declaration.headAndParams?,
    Text.cutAt?_eq_some_iff.mpr ⟨rfl, hopening⟩]
  simp only
  rw [Text.cutAtLast?_eq_some_iff.mpr ⟨rfl, hclosing⟩, Option.map_some]

/-- Ampersands stand between the bounds of type variables and in type arguments only. -/
theorem IsShaped.ampersand_notMem_text (h : d.IsShaped) (hvariables : d.typeParameters = [])
    (hreturn : ∀ t, d.returnType? = some t → t.arguments = [])
    (hparams : ∀ p ∈ d.params, p.type.arguments = []) (hrest : '&' ∉ d.rest) : '&' ∉ d.text := by
  have hwords : ∀ w ∈ d.words, '&' ∉ w := by
    intro w hw
    have htypes : d.typeWords = [] := by rw [typeWords, hvariables]
    rw [words, htypes, List.nil_append, List.mem_append] at hw
    rcases hw with hw | hw
    · exact (h.modifiers w hw).isIdentifier.isQualifiedName.not_mem (by decide)
    · unfold nameWords at hw
      split at hw
      · next t ht =>
        rcases List.mem_pair.mp hw with rfl | rfl
        · exact (h.returnType t ht).1.ampersand_notMem_text (hreturn t ht)
        · exact h.name.not_mem (by decide)
      · rw [List.mem_singleton.mp hw]
        exact h.name.not_mem (by decide)
  have hparamsText : '&' ∉ d.paramsText := by
    intro hm
    rcases mem_or_exists_of_mem_intercalate hm with hm | ⟨s, hs, hm⟩
    · exact absurd hm (by decide)
    · obtain ⟨p, hp, rfl⟩ := List.mem_map.mp hs
      exact WrittenParam.ampersand_notMem_text (h.params p hp) (hparams p hp) hm
  have hhead : '&' ∉ [' '].intercalate d.words := by
    intro hm
    rcases mem_or_exists_of_mem_intercalate hm with hm | ⟨w, hw, hm⟩
    · exact absurd hm (by decide)
    · exact hwords w hw hm
  simp [text, hhead, hparamsText, hrest]

/-- **A declaration is read as the parts that it was put together from**, whichever of its angle
brackets are escaped. -/
theorem IsShaped.parts?_text (h : d.IsShaped) (className : Text) (hplain : d.text.IsUnescaped)
    {line : Text} (hline : Text.IsEscapeOf line d.text) :
    Declaration.parts? className line = some (d.parts className) := by
  have hwords : Text.splitTopLevel ' ' ([' '].intercalate d.words) = d.words :=
    Text.splitTopLevel_intercalate [] [] (by decide) (by simp) (by simp)
      fun w hw => (h.isWord w hw).item
  unfold Declaration.parts?
  rw [Text.unescapeAngles_of_isEscapeOf hline hplain, h.headAndParams?_text]
  simp only [hwords, h.takeModifiers_words, h.takeTypeVariables_words, h.returnAndName?_words,
    h.splitTopLevel_paramsText, h.ofTexts_params]
  rfl

/-! ### Members -/

/-- Whether a declaration is one of a member of a class. A method has a simple name, a constructor
that of its class. -/
structure IsMemberOf (className : Text) (d : WrittenDeclaration) : Prop extends d.IsShaped where
  nodup : (d.typeParameters.map TypeParameter.name).Nodup
  member : IsIdentifier d.name ∨ d.name = className ∧ IsQualifiedName className

/--
**Every declaration of a member is recovered**, whichever of its angle brackets are escaped: the
bits of its modifiers, each type variable with its first bound, the return type, or `void` for a
constructor, the name, and the parameters. The types come without their arguments, and dots at the
end of the parameters as brackets and as the mark of varargs.
-/
theorem IsMemberOf.ofDeclaration_text {className : Text} (h : d.IsMemberOf className)
    (hplain : d.text.IsUnescaped) {line : Text} (hline : Text.IsEscapeOf line d.text) :
    ∃ p, Parts.ofDeclaration className line = .ok p ∧
      p.className = className ∧
      p.modifier = Declaration.bits d.modifiers ∧
      p.typeVariables.entries = d.typeParameters.map (fun v => (v.name, v.erasure)) ∧
      p.returnType = (d.returnType?.map WrittenType.read).getD "void".toList ∧
      p.memberName = d.name ∧
      p.paramTypes = d.params.map WrittenParam.read ∧
      p.isVarargs = d.params.getLast?.any WrittenParam.dots := by
  refine ⟨d.parts className, ?_, rfl, rfl, TypeParameter.entries_erasures h.nodup, rfl,
    Declaration.declaredName_memberName h.member, rfl, rfl⟩
  rw [Parts.ofDeclaration, h.toIsShaped.parts?_text className hplain hline]

/-- A method with `default` among its modifiers, an ampersand and a comma in type arguments, a list
of exceptions, and escaped brackets in the list of type variables only. -/
theorem IsMemberOf.ofDeclaration_text_merge :
    let k : TypeParameter := ⟨['K'], [⟨"java.lang.Comparable".toList, "<? super K&V>".toList, 0⟩,
      ⟨"java.io.Serializable".toList, [], 0⟩]⟩
    let v : TypeParameter := ⟨['V'], []⟩
    let d : WrittenDeclaration :=
      { modifiers := ["default".toList, "public".toList, "default".toList, "strictfp".toList]
        typeParameters := [k, v]
        returnType? := some ⟨"java.util.Map".toList, "<K, java.util.List<V>>".toList, 1⟩
        name := "merge".toList
        params := [⟨⟨"int".toList, [], 2⟩, false⟩, ⟨⟨['K'], [], 0⟩, true⟩]
        rest := " throws java.io.IOException;".toList }
    let before := "default public default strictfp <K extends java.lang.Comparable<? ".toList ++
      "super K&V> & java.io.Serializable, V>".toList
    let after := " java.util.Map<K, java.util.List<V>>[] merge(int[][], K...) ".toList ++
      "throws java.io.IOException;".toList
    let line := Text.escapeAngles before ++ after
    d.IsMemberOf "a.B".toList ∧ d.text.IsUnescaped ∧ Text.IsEscapeOf line d.text ∧
    ∃ p, Parts.ofDeclaration "a.B".toList line = .ok p ∧
      p.modifier = 0x0801 ∧
      p.typeVariables.entries = [(['K'], "java.lang.Comparable".toList),
        (['V'], "java.lang.Object".toList)] ∧
      p.returnType = "java.util.Map[]".toList ∧ p.memberName = "merge".toList ∧
      p.paramTypes = ["int[][]".toList, "K[]".toList] ∧ p.isVarargs = true := by
  intro k v d before after line
  have flat : ∀ s : Text, (s.all fun c => decide (c ∉ "<>(".toList)) = true → IsNested s :=
    fun s hs => isNested_of_forall (forall_mem_of_all hs)
  have hk : k.IsShaped := by
    refine ⟨by decide +kernel, fun b hb => ?_⟩
    rcases List.mem_pair.mp hb with rfl | rfl
    · exact ⟨by decide +kernel, Or.inr ⟨"? super K&V".toList, by decide, flat _ (by decide)⟩⟩
    · exact ⟨by decide +kernel, Or.inl rfl⟩
  have hv : v.IsShaped := ⟨by decide +kernel, by simp [v]⟩
  have hmap : IsNested "K, java.util.List<V>".toList :=
    (flat "K, java.util.List".toList (by decide)).append (flat ['V'] (by decide)).group
  have hd : d.IsMemberOf "a.B".toList :=
    { modifiers := by decide
      typeParameters := by
        intro p hp
        rcases List.mem_pair.mp hp with rfl | rfl
        · exact hk
        · exact hv
      returnType := by
        intro t ht
        obtain rfl := Option.some.inj ht
        exact ⟨⟨by decide +kernel, Or.inr ⟨_, by decide, hmap⟩⟩, by decide⟩
      name := by decide +kernel
      constructor := by decide
      params := by
        intro p hp
        rcases List.mem_pair.mp hp with rfl | rfl
        · exact ⟨by decide +kernel, Or.inl rfl⟩
        · exact ⟨by decide +kernel, Or.inl rfl⟩
      rest := by decide
      nodup := by decide
      member := Or.inl (by decide +kernel) }
  have hplain : d.text.IsUnescaped := by decide +kernel
  have hline : Text.IsEscapeOf line d.text := by
    have htext : d.text = before ++ after := by decide +kernel
    rw [htext]
    exact (Text.isEscapeOf_escapeAngles before).append (Text.isEscapeOf_self after)
  obtain ⟨p, hp, -, hmodifier, hvariables, hreturn, hname, hparams, hvarargs⟩ :=
    hd.ofDeclaration_text hplain hline
  refine ⟨hd, hplain, hline, p, hp, ?_, hvariables, hreturn, hname, hparams, hvarargs⟩
  rw [hmodifier]
  decide

end WrittenDeclaration

end JvmSignature
