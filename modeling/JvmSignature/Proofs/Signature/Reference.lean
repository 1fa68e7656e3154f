import JvmSignature.Proofs.Descriptor.Naming
import JvmSignature.Proofs.Signature.LogLine

/-!
# References in log lines

A reference to a member is its class, its name and its types. A log line spells one in several ways:
with slashes or dots, with escaped or plain angle brackets, with the encodings of the types or with
their names. All of them are read as the same parts (`ofLogLine_eq`).

The two forms of the types meet at `MethodDescriptor.IsWritten`, which says what the reader of lines
needs of them; the rest of the proof does not know in which form they are.
-/

namespace JvmSignature

/-! ## References -/

/-- A member as a signature refers to it: its class, its name and its types. -/
structure MemberReference where
  className : Text
  memberName : Text
  type : MethodDescriptor
  deriving DecidableEq

/-- The name of a method: an identifier, or that of constructors. -/
def IsMemberName (s : Text) : Prop := IsIdentifier s ∨ s = constructorName

instance (s : Text) : Decidable (IsMemberName s) := inferInstanceAs (Decidable (_ ∨ _))

/-- The types of a method by name, as a log line writes them. -/
def MethodDescriptor.names (m : MethodDescriptor) : Text :=
  '(' :: Descriptor.joinedNames m.params ++ ')' :: m.returnType.name

/-- Whether the classes that a method descriptor mentions have well-formed names, and `void` is
nothing but returned. -/
structure MethodDescriptor.IsNamed (m : MethodDescriptor) : Prop where
  params : ∀ d ∈ m.params, d.IsNamed ∧ d.IsField
  returnType : m.returnType.IsNamed ∧ m.returnType.IsReturn

/-- Whether no class name in a method descriptor spells a run of primitive types. -/
structure MethodDescriptor.IsDistinct (m : MethodDescriptor) : Prop where
  params : ∀ d ∈ m.params, d.IsDistinct
  returnType : m.returnType.IsDistinct

namespace MemberReference

/-- Whether all names of a reference are well-formed. -/
structure IsNamed (ref : MemberReference) : Prop where
  className : IsQualifiedName ref.className
  memberName : IsMemberName ref.memberName
  type : ref.type.IsNamed

/-- The parts of a reference. -/
def parts (ref : MemberReference) : Parts :=
  Parts.ofTexts ref.className ref.memberName (ref.type.params.map Descriptor.name)
    ref.type.returnType.name

/-- No parameter of a reference is written with dots at its end. -/
theorem parts_eq {ref : MemberReference} (h : ref.IsNamed) :
    ref.parts =
      { className := ref.className
        memberName := declaredName ref.className ref.memberName
        modifier := 0
        paramTypes := ref.type.params.map Descriptor.name
        returnType := ref.type.returnType.name
        typeVariables := Table.empty
        isVarargs := false } := by
  have hparams : (ref.type.params.map Descriptor.name).map TypeText.varargsAsArray =
      ref.type.params.map Descriptor.name := by
    rw [List.map_map]
    exact List.map_congr_left fun d hd => Descriptor.varargsAsArray_name (h.type.params d hd).1
  have hlast : (ref.type.params.map Descriptor.name).getLast?.any TypeText.isVarargs = false := by
    cases hl : (ref.type.params.map Descriptor.name).getLast? with
    | none => rfl
    | some last =>
      obtain ⟨d, hd, rfl⟩ := List.mem_map.mp (List.mem_of_getLast? hl)
      exact Descriptor.isVarargs_name (h.type.params d hd).1
  rw [parts, Parts.ofTexts, hparams, hlast]

end MemberReference

/-! ## Characters of a member name -/

theorem IsMemberName.chars {s : Text} (h : IsMemberName s) {c : Char} (hc : c ∈ s) :
    SourceOutline.isNameChar c = true ∨ c = '<' ∨ c = '>' := by
  rcases h with h | rfl
  · exact Or.inl (h.2 c hc)
  · have all : ∀ c ∈ constructorName,
        SourceOutline.isNameChar c = true ∨ c = '<' ∨ c = '>' :=
      forall_mem_of_all (by decide +kernel)
    exact all c hc

theorem IsMemberName.not_mem {s : Text} (h : IsMemberName s) {c : Char}
    (hc : c ∈ delimitersBut "<>".toList) : c ∉ s := by
  intro hm
  obtain ⟨hdelimiter, hkept⟩ := mem_delimitersBut_iff.mp hc
  rcases h.chars hm with hn | rfl | rfl
  · exact ne_of_isNameChar hn hdelimiter rfl
  · exact hkept (by decide)
  · exact hkept (by decide)

theorem IsMemberName.ne_nil {s : Text} (h : IsMemberName s) : s ≠ [] := by
  rcases h with h | rfl
  · exact h.1
  · decide

theorem IsMemberName.not_blank {s : Text} (h : IsMemberName s) {c : Char} (hc : c ∈ s) :
    isBlank c = false := by
  rcases h.chars hc with hn | rfl | rfl
  · exact isBlank_of_isNameChar hn
  · decide
  · decide

/-! ## Log lines -/

/-- The characters by which a log line is cut and changed before its types are read. -/
def lineMarks : Text := "()<>&/\n".toList

theorem lineMarks_subset : lineMarks ⊆ delimitersBut typeMarks := by decide

/-- What a log line needs of the texts of its parameters and of its return type. -/
structure MethodDescriptor.IsWritten (m : MethodDescriptor) (inner result : Text) : Prop where
  innerChars : ∀ c ∈ lineMarks, c ∉ inner
  resultChars : IsTypeText result
  result_ne_nil : result ≠ []
  paramTypes : ∀ owner member,
    LogLine.paramTypes ⟨owner, member, '(' :: inner ++ [')'], result⟩ =
      m.params.map Descriptor.name
  returnType : Descriptor.expand result = m.returnType.name

namespace MethodDescriptor

variable {m : MethodDescriptor}

/-- Behind the parenthesis that opens the types there is no mark but the one that closes it. -/
theorem IsWritten.not_mem {inner result : Text} (h : m.IsWritten inner result) {c : Char}
    (hc : c ∈ lineMarks) (hne : c ≠ ')') : c ∉ inner ++ ')' :: result := by
  rw [List.mem_append, List.mem_cons]
  rintro (hm | hm | hm)
  · exact h.innerChars c hc hm
  · exact hne hm
  · exact h.resultChars.not_mem (lineMarks_subset hc) hm

/-- The types of a log line may be written by their encodings. -/
theorem isWritten_encode (h : m.IsNamed) :
    m.IsWritten (m.params.flatMap Descriptor.encode) m.returnType.encode where
  innerChars c hc := by
    have htext := Descriptor.isTypeText_encodings fun d hd => (h.params d hd).1
    exact htext.not_mem (lineMarks_subset hc)
  resultChars := Descriptor.isTypeText_encode h.returnType.1
  result_ne_nil := by
    obtain ⟨c, rest, hc, -⟩ := m.returnType.element.encode_ne_bracket
    rw [Descriptor.encode, hc]
    simp
  paramTypes owner member := by
    have htext := Descriptor.isTypeText_encodings fun d hd => (h.params d hd).1
    have hslash : '/' ∉ m.params.flatMap Descriptor.encode :=
      htext.not_mem (by decide)
    have hrun : Descriptor.ofRun (m.params.flatMap Descriptor.encode) = .ok m.params :=
      Descriptor.ofRun_eq_ok_iff.mpr
        ⟨Text.dotted_eq_self hslash, fun d hd => (h.params d hd).2⟩
    unfold LogLine.paramTypes
    simp only [List.cons_append, Descriptor.ofList_parens, hrun]
  returnType := Descriptor.expand_encode m.returnType

/-- The types of a log line may be written by their names. -/
theorem isWritten_names (h : m.IsNamed) (hdist : m.IsDistinct) :
    m.IsWritten (Descriptor.joinedNames m.params) m.returnType.name where
  innerChars c hc hm := by
    rcases Descriptor.mem_joinedNames hm with rfl | rfl | ⟨d, hd, hm⟩
    · exact absurd hc (by decide)
    · exact absurd hc (by decide)
    · exact (Descriptor.isTypeText_name (h.params d hd).1).not_mem (lineMarks_subset hc) hm
  resultChars := Descriptor.isTypeText_name h.returnType.1
  result_ne_nil := (Descriptor.isItem_name h.returnType.1).ne_nil
  paramTypes owner member := by
    unfold LogLine.paramTypes
    simp only [List.cons_append, Descriptor.ofList_parens, Descriptor.unparenthesized_parens]
    cases hrun : Descriptor.ofRun (Descriptor.joinedNames m.params) with
    | error e => exact Descriptor.splitTopLevel_joinedNames fun d hd => (h.params d hd).1
    | ok types =>
      obtain ⟨hnil, rfl⟩ := Descriptor.eq_nil_of_ofRun_joinedNames
        (fun d hd => (h.params d hd).1) (fun d hd => (hdist.params d hd).isNoRun) hrun
      rw [hnil]
  returnType := Descriptor.expand_name h.returnType.1 hdist.returnType

end MethodDescriptor

namespace MemberReference

variable {ref : MemberReference}

/-- The pieces of a line become the parts of the reference. -/
theorem logLine_parts_eq (h : ref.IsNamed) {inner result : Text}
    (ht : ref.type.IsWritten inner result) :
    LogLine.parts ⟨ref.className, ref.memberName, '(' :: inner ++ [')'], result⟩ = ref.parts := by
  have hmember : Text.trim ref.memberName = ref.memberName :=
    Text.trim_eq_self_of_forall fun c hc => h.memberName.not_blank hc
  simp only [LogLine.parts]
  rw [h.className.isTypeText.trim, hmember, ht.resultChars.trim, ht.paramTypes, ht.returnType]
  rfl

/-- A line with dots is cut into the class, the member and the texts of the types. -/
theorem pieces?_eq_of_isWritten (h : ref.IsNamed) {inner result : Text}
    (ht : ref.type.IsWritten inner result) :
    LogLine.pieces? (ref.className ++ ' ' ::
        (ref.memberName ++ ' ' :: '(' :: (inner ++ ')' :: result))) =
      some ⟨ref.className, ref.memberName, '(' :: inner ++ [')'], result⟩ := by
  refine LogLine.pieces?_line ?_ ?_ h.memberName.ne_nil ?_ ?_ (ht.not_mem (by decide) (by decide))
    (ht.not_mem (by decide) (by decide)) (ht.resultChars.not_mem (by decide))
  · obtain ⟨c, rest, hc, -⟩ := h.className.head
    rw [hc]
    exact List.cons_ne_nil c rest
  · intro c hc
    have hmarks : ";[/<>".toList ⊆ delimitersBut ['.'] := by decide
    rw [LogLine.isClassChar,
      contains_eq_false_of_mem (fun m hm => h.className.not_mem (hmarks hm)) hc]
    rfl
  · intro c hc
    have hmarks : ";[/".toList ⊆ delimitersBut "<>".toList := by decide
    rw [LogLine.isMemberChar,
      contains_eq_false_of_mem (fun m hm => h.memberName.not_mem (hmarks hm)) hc]
    rfl
  · exact h.memberName.not_mem (by decide)

/-- Whether a text is the name of a member as a log writes it: plain, or with escaped brackets. -/
def IsLoggedName (ref : MemberReference) (name : Text) : Prop :=
  name = ref.memberName ∨ name = Text.escapeAngles ref.memberName

theorem slash_not_mem_of_isLoggedName (h : ref.IsNamed) {name : Text} (hn : ref.IsLoggedName name) :
    '/' ∉ name := by
  have hplain : '/' ∉ ref.memberName := h.memberName.not_mem (by decide)
  rcases hn with rfl | rfl
  · exact hplain
  · intro hm
    obtain ⟨c, hc, hm⟩ := List.mem_flatMap.mp hm
    unfold Text.escapeAngle at hm
    split at hm
    · exact absurd hm (by decide)
    · split at hm
      · exact absurd hm (by decide)
      · rw [List.mem_singleton] at hm
        exact hplain (hm ▸ hc)

/-- Unescaping a line gives the line with the plain name. -/
theorem unescapeAngles_line (h : ref.IsNamed) {inner result name : Text}
    (ht : ref.type.IsWritten inner result) (hn : ref.IsLoggedName name) :
    Text.unescapeAngles (ref.className ++ ' ' :: (name ++ ' ' :: '(' :: (inner ++ ')' :: result))) =
      ref.className ++ ' ' :: (ref.memberName ++ ' ' :: '(' :: (inner ++ ')' :: result)) := by
  have hclass : ∀ c ∈ "<>&".toList, c ∉ ref.className := by
    have hmarks : "<>&".toList ⊆ delimitersBut ['.'] := by decide
    exact fun c hc => h.className.not_mem (hmarks hc)
  have htypes : ∀ c ∈ "<>&".toList, c ∉ ' ' :: '(' :: (inner ++ ')' :: result) := by
    intro c hc hm
    have hmarks : "<>&".toList ⊆ lineMarks := by decide
    have hother : ∀ c ∈ "<>&".toList, c ≠ ' ' ∧ c ≠ '(' ∧ c ≠ ')' :=
      forall_mem_of_all (by decide)
    obtain ⟨hspace, hopening, hclosing⟩ := hother c hc
    rw [List.mem_cons, List.mem_cons] at hm
    rcases hm with hm | hm | hm
    · exact hspace hm
    · exact hopening hm
    · exact ht.not_mem (hmarks hc) hclosing hm
  have hamp : '&' ∉ ref.className ++ ' ' ::
      (ref.memberName ++ ' ' :: '(' :: (inner ++ ')' :: result)) := by
    rw [List.mem_append, List.mem_cons, List.mem_append]
    rintro (hm | hm | hm | hm)
    · exact hclass _ (by decide) hm
    · exact absurd hm (by decide)
    · exact h.memberName.not_mem (by decide) hm
    · exact htypes _ (by decide) hm
  rcases hn with rfl | rfl
  · exact Text.unescapeAngles_eq_self hamp
  · -- Nothing but the name holds anything to escape.
    rw [← Text.unescapeAngles_escapeAngles hamp]
    have hspace : ∀ s : Text, Text.escapeAngles (' ' :: s) = ' ' :: Text.escapeAngles s :=
      fun s => rfl
    rw [Text.escapeAngles_append, hspace, Text.escapeAngles_append,
      Text.escapeAngles_eq_self (hclass _ (by decide)) (hclass _ (by decide)),
      Text.escapeAngles_eq_self (htypes _ (by decide)) (htypes _ (by decide))]

/--
**A log line is read as the reference that it spells**, whether its types are written by their
encodings or by their names, with slashes or dots, and its brackets escaped or not.
-/
theorem ofLogLine_eq_of_isWritten (h : ref.IsNamed) {inner result owner name types : Text}
    (ht : ref.type.IsWritten inner result) (ho : owner.dotted = ref.className)
    (hn : ref.IsLoggedName name) (hdot : types.dotted = '(' :: (inner ++ ')' :: result)) :
    Parts.ofLogLine (owner ++ ' ' :: (name ++ ' ' :: types)) = .ok ref.parts := by
  have hline : Text.dotted (owner ++ ' ' :: (name ++ ' ' :: types)) =
      ref.className ++ ' ' :: (name ++ ' ' :: '(' :: (inner ++ ')' :: result)) := by
    have hspace : ∀ s : Text, Text.dotted (' ' :: s) = ' ' :: Text.dotted s := fun s => rfl
    rw [Text.dotted_append, ho, hspace, Text.dotted_append, hspace,
      Text.dotted_eq_self (slash_not_mem_of_isLoggedName h hn), hdot]
  have htrim : Text.trim (ref.className ++ ' ' ::
      (name ++ ' ' :: '(' :: (inner ++ ')' :: result))) =
        ref.className ++ ' ' :: (name ++ ' ' :: '(' :: (inner ++ ')' :: result)) := by
    refine Text.trim_eq_self ?_ ?_
    · obtain ⟨c, rest, hc, hname⟩ := h.className.head
      rw [hc]
      rintro x ⟨⟩
      exact isBlank_of_isNameChar hname
    · intro x hx
      have hends : ref.className ++ ' ' :: (name ++ ' ' :: '(' :: (inner ++ ')' :: result)) =
          (ref.className ++ ' ' :: (name ++ ' ' :: '(' :: (inner ++ [')']))) ++ result := by
        simp
      rw [hends, List.getLast?_append, List.getLast?_eq_some_getLast ht.result_ne_nil,
        Option.some_or] at hx
      exact ht.resultChars.not_blank (Option.some.inj hx ▸ List.getLast_mem _)
  rw [Parts.ofLogLine, Text.dotted_trim, hline, htrim, LogLine.ofLine, unescapeAngles_line h ht hn,
    pieces?_eq_of_isWritten h ht]
  simp only [logLine_parts_eq h ht]

/-- Whether a text spells the types of a reference as log lines write them, with slashes or dots:
by their encodings, or by their names. -/
def IsLoggedTypes (ref : MemberReference) (types : Text) : Prop :=
  types.dotted = ref.type.encode ∨ types.dotted = ref.type.names

/-- **A log line is read as the reference that it spells.** -/
theorem ofLogLine_eq (h : ref.IsNamed) (hdist : ref.type.IsDistinct) {owner name types : Text}
    (ho : owner.dotted = ref.className) (hn : ref.IsLoggedName name)
    (ht : ref.IsLoggedTypes types) :
    Parts.ofLogLine (owner ++ ' ' :: (name ++ ' ' :: types)) = .ok ref.parts := by
  rcases ht with ht | ht
  · exact ofLogLine_eq_of_isWritten h (MethodDescriptor.isWritten_encode h.type) ho hn ht
  · exact ofLogLine_eq_of_isWritten h (MethodDescriptor.isWritten_names h.type hdist) ho hn ht

end MemberReference

end JvmSignature
