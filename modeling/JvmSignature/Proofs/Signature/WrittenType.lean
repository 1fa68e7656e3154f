import JvmSignature.Descriptor.Basic
import JvmSignature.Proofs.Text.Cuts
import JvmSignature.Proofs.Text.Names
import JvmSignature.Proofs.Text.TopLevel
import JvmSignature.Signature.TypeText

/-!
# Written types

A declaration writes a type by its name, then its type arguments, then a pair of brackets for each
array dimension, and a parameter that takes any number of arguments with dots behind these. Of a
type that is written so the readers drop the arguments, turn the dots into brackets, and tell the
name from the brackets.

How much has to be well-formed depends on the reader. To look a type up it is enough that its name
is one, with slashes or dots (`IsSpelled`). To find its end in a list the brackets of its arguments
have to be balanced (`IsShaped`).
-/

namespace JvmSignature

open SourceOutline (isNameChar)

/-! ## Brackets -/

namespace Descriptor

theorem mem_brackets {n : Nat} {c : Char} (h : c ∈ brackets n) : c = '[' ∨ c = ']' := by
  induction n with
  | zero => cases h
  | succ n ih =>
    rw [brackets, List.mem_cons, List.mem_cons] at h
    rcases h with h | h | h
    · exact Or.inl h
    · exact Or.inr h
    · exact ih h

/-- One more pair of brackets is as well the last one. -/
theorem brackets_concat (n : Nat) : brackets (n + 1) = brackets n ++ ['[', ']'] := by
  induction n with
  | zero => rfl
  | succ n ih =>
    have hcons : ∀ m, brackets (m + 1) = '[' :: ']' :: brackets m := fun _ => rfl
    rw [hcons (n + 1), ih, ← List.cons_append, ← List.cons_append, ← hcons n, ih]

end Descriptor

namespace TypeText

open Descriptor (brackets)

theorem bracketCount_append {s : Text} (h : '[' ∉ s) (t : Text) :
    bracketCount (s ++ t) = bracketCount t := by
  induction s with
  | nil => rfl
  | cons c s ih =>
    simp only [List.mem_cons, not_or] at h
    rw [List.cons_append, bracketCount, ih h.2]
    rintro rest rfl
    exact absurd rfl h.1

theorem bracketCount_brackets (n : Nat) : bracketCount (brackets n) = n := by
  induction n with
  | zero => rfl
  | succ n ih => rw [brackets, bracketCount, ih]

theorem beforeBrackets_append {s : Text} (h : '[' ∉ s) (n : Nat) :
    beforeBrackets (s ++ brackets n) = s := by
  induction s with
  | nil => cases n <;> rfl
  | cons c s ih =>
    simp only [List.mem_cons, not_or] at h
    rw [List.cons_append, beforeBrackets, ih h.2]
    rintro rest rfl
    exact absurd rfl h.1

theorem fromBrackets_append {s : Text} (h : '[' ∉ s) (n : Nat) :
    fromBrackets (s ++ brackets n) = brackets n := by
  have hs := beforeBrackets_append_fromBrackets (s ++ brackets n)
  rw [beforeBrackets_append h] at hs
  exact List.append_cancel_left hs

/-! ## Type arguments -/

/-- A type without type arguments is kept. -/
theorem withoutArguments_eq_self {s : Text} (h : '<' ∉ s) : withoutArguments s = s := by
  rw [withoutArguments, Text.cutAt?_eq_none_iff.mpr h]

/-- Type arguments are dropped, whatever they are. -/
theorem withoutArguments_append {before after : Text} (hbefore : '<' ∉ before)
    (hafter : '>' ∉ after) (inner : Text) :
    withoutArguments (before ++ '<' :: (inner ++ '>' :: after)) = before ++ after := by
  rw [withoutArguments, Text.cutAt?_eq_some_iff.mpr ⟨rfl, hbefore⟩]
  simp only [Text.cutAtLast?_eq_some_iff.mpr ⟨rfl, hafter⟩]

/-! ## Dots -/

theorem varargsComponent?_dots (s : Text) : varargsComponent? (s ++ "...".toList) = some s :=
  Text.isSuffixOf?_eq_some_iff.mpr rfl

theorem varargsComponent?_eq_none {s : Text} (h : s.getLast? ≠ some '.') :
    varargsComponent? s = none := by
  rw [varargsComponent?, Option.eq_none_iff_forall_ne_some]
  intro component hc
  rw [Text.isSuffixOf?_eq_some_iff] at hc
  exact h (by simp [hc])

end TypeText

/-! ## Names -/

/-- A name may stand in every list, between its separators. -/
theorem IsQualifiedName.isItem {s : Text} (h : IsQualifiedName s) {sep : Char}
    (hsep : sep ∈ delimitersBut ['.']) : Text.IsItem sep s where
  piece := by
    refine Text.isPiece_of_forall fun c hc => ⟨?_, ?_, ?_⟩
    · exact ne_of_mem_of_not_mem hc (h.not_mem hsep)
    · exact ne_of_mem_of_not_mem hc (h.not_mem (by decide))
    · exact ne_of_mem_of_not_mem hc (h.not_mem (by decide))
  head := by
    obtain ⟨c, rest, hc, hn⟩ := h.head
    exact ⟨c, rest, hc, isBlank_of_isNameChar hn⟩
  last := by
    obtain ⟨rest, c, hc, hn⟩ := h.last
    exact ⟨rest, c, hc, isBlank_of_isNameChar hn⟩

/-- Whether a text is a qualified name that may be written with slashes for dots. -/
def IsSpelledName (s : Text) : Prop := IsQualifiedName s.dotted

instance (s : Text) : Decidable (IsSpelledName s) :=
  inferInstanceAs (Decidable (IsQualifiedName s.dotted))

theorem IsQualifiedName.isSpelledName {s : Text} (h : IsQualifiedName s) : IsSpelledName s := by
  rw [IsSpelledName, Text.dotted_eq_self (h.not_mem (by decide))]
  exact h

namespace IsSpelledName

variable {s : Text}

/-- No delimiter but slashes and dots stands in a spelled name. -/
theorem not_mem (h : IsSpelledName s) {c : Char} (hc : c ∈ delimitersBut ['.', '/']) : c ∉ s := by
  obtain ⟨hdelimiter, hmarks⟩ := mem_delimitersBut_iff.mp hc
  obtain ⟨hdot, hslash⟩ : c ≠ '.' ∧ c ≠ '/' := by simpa using hmarks
  rw [← Text.mem_dotted_iff hslash hdot]
  exact IsQualifiedName.not_mem h (mem_delimitersBut_iff.mpr ⟨hdelimiter, by simpa using hdot⟩)

/-- A spelled name starts as a qualified name does. -/
theorem head (h : IsSpelledName s) : ∃ c rest, s = c :: rest ∧ isNameChar c = true := by
  obtain ⟨c, rest, hs, hc⟩ := IsQualifiedName.head h
  have hslash : c ≠ '/' := ne_of_isNameChar hc (by decide)
  have hdot : c ≠ '.' := ne_of_isNameChar hc (by decide)
  obtain ⟨rest', rfl, -⟩ := (Text.dotted_eq_cons_iff hslash hdot).mp hs
  exact ⟨c, rest', rfl, hc⟩

/-- A spelled name ends as a qualified name does. -/
theorem last (h : IsSpelledName s) : ∃ rest c, s = rest ++ [c] ∧ isNameChar c = true := by
  obtain ⟨rest, c, hs, hc⟩ := IsQualifiedName.last h
  have hslash : c ≠ '/' := ne_of_isNameChar hc (by decide)
  have hdot : c ≠ '.' := ne_of_isNameChar hc (by decide)
  obtain ⟨rest', tail, rfl, -, htail⟩ := Text.dotted_eq_append_iff.mp hs
  obtain ⟨empty, rfl, hempty⟩ := (Text.dotted_eq_cons_iff hslash hdot).mp htail
  obtain rfl : empty = [] := List.map_eq_nil_iff.mp hempty
  exact ⟨rest', c, rfl, hc⟩

theorem not_blank (h : IsSpelledName s) {c : Char} (hc : c ∈ s) : isBlank c = false := by
  refine Text.not_blank_of_dotted (fun x hx => ?_) hc
  rcases isNameChar_or_eq_dot h hx with hn | rfl
  · exact isBlank_of_isNameChar hn
  · decide

end IsSpelledName

/-! ## Written types -/

/-- Whether a text may stand between angle brackets in a declaration. It closes the brackets that it
opens, and no parenthesis opens in it, as one that did would be taken for that of the parameters. -/
structure IsNested (s : Text) : Prop where
  balanced : Text.IsBalanced s
  opening : '(' ∉ s

theorem isNested_nil : IsNested [] := ⟨.nil, by simp⟩

theorem isNested_of_forall {s : Text} (h : ∀ c ∈ s, c ∉ "<>(".toList) : IsNested s where
  balanced := by
    refine Text.isBalanced_of_forall fun c hc => ⟨?_, ?_⟩
    · rintro rfl
      exact h _ hc (by decide)
    · rintro rfl
      exact h _ hc (by decide)
  opening hm := h _ hm (by decide)

theorem IsNested.append {s t : Text} (hs : IsNested s) (ht : IsNested t) : IsNested (s ++ t) :=
  ⟨hs.balanced.append ht.balanced, by simp [hs.opening, ht.opening]⟩

theorem IsNested.group {inner : Text} (h : IsNested inner) :
    IsNested ('<' :: (inner ++ ['>'])) :=
  ⟨Text.isBalanced_group h.balanced, by simp [h.opening]⟩

theorem isNested_intercalate {glue : Text} {items : List Text} (hg : IsNested glue)
    (h : ∀ i ∈ items, IsNested i) : IsNested (glue.intercalate items) :=
  Text.intercalate_induction isNested_nil (fun _ _ => IsNested.append) hg h

theorem IsQualifiedName.isNested {s : Text} (h : IsQualifiedName s) : IsNested s := by
  have hmarks : "<>(".toList ⊆ delimitersBut ['.'] := by decide
  exact isNested_of_forall fun c hc hm => h.not_mem (hmarks hm) hc

/-- Whether a text is a list of type arguments in angle brackets, or nothing. -/
def IsTypeArguments (s : Text) : Prop :=
  s = [] ∨ ∃ inner, s = '<' :: (inner ++ ['>']) ∧ IsNested inner

/-- Whether a text stands in angle brackets, whatever it holds, or is nothing. -/
def IsAngled (s : Text) : Prop := s = [] ∨ ∃ inner, s = '<' :: (inner ++ ['>'])

theorem IsTypeArguments.isAngled {s : Text} (h : IsTypeArguments s) : IsAngled s :=
  h.imp id fun ⟨inner, hs, _⟩ => ⟨inner, hs⟩

theorem IsAngled.not_blank_last {s : Text} (h : IsAngled s) {c : Char} (hc : s.getLast? = some c) :
    isBlank c = false := by
  rcases h with rfl | ⟨inner, rfl⟩
  · cases hc
  · rw [← List.cons_append, List.getLast?_concat] at hc
    obtain rfl : '>' = c := Option.some.inj hc
    decide

theorem IsTypeArguments.isNested {s : Text} (h : IsTypeArguments s) : IsNested s := by
  rcases h with rfl | ⟨inner, rfl, hinner⟩
  · exact isNested_nil
  · exact hinner.group

/-- A type as a declaration writes it. -/
structure WrittenType where
  name : Text
  /-- The type arguments, with the angle brackets around them, if there are any. -/
  arguments : Text
  depth : Nat

/-- A parameter as a declaration writes it. -/
structure WrittenParam where
  type : WrittenType
  /-- Whether dots stand at the end. -/
  dots : Bool

/-- The characters behind the name and the arguments of a type or of a parameter. -/
def suffixMarks : Text := "[].".toList

theorem delimitersBut_suffixMarks_subset : delimitersBut suffixMarks ⊆ delimitersBut ['.'] := by
  decide

theorem isPiece_suffix {s : Text} (h : ∀ c ∈ s, c ∈ suffixMarks) {sep : Char}
    (hsep : sep ∈ delimitersBut suffixMarks) : Text.IsPiece sep s := by
  have hangles : '<' ∉ suffixMarks ∧ '>' ∉ suffixMarks := by decide
  refine Text.isPiece_of_forall fun c hc => ⟨?_, ?_, ?_⟩
  · exact ne_of_mem_of_not_mem (h c hc) (mem_delimitersBut_iff.mp hsep).2
  · exact ne_of_mem_of_not_mem (h c hc) hangles.1
  · exact ne_of_mem_of_not_mem (h c hc) hangles.2

theorem not_blank_of_suffix {s : Text} (h : ∀ c ∈ s, c ∈ suffixMarks) {c : Char}
    (hc : s.getLast? = some c) : isBlank c = false := by
  have hmarks : ∀ c ∈ suffixMarks, isBlank c = false := forall_mem_of_all (by decide)
  exact hmarks c (h c (List.mem_of_getLast? hc))

namespace WrittenType

open Descriptor (brackets)

/-- The type as it is written. -/
def text (t : WrittenType) : Text := t.name ++ (t.arguments ++ brackets t.depth)

/-- The type as it is read, without its arguments. -/
def read (t : WrittenType) : Text := t.name ++ brackets t.depth

/-- Whether the name is one, with slashes or dots, and angle brackets enclose the type arguments. -/
structure IsSpelled (t : WrittenType) : Prop where
  name : IsSpelledName t.name
  arguments : IsAngled t.arguments

/-- Whether the name and the type arguments have the shape of such. -/
structure IsShaped (t : WrittenType) : Prop where
  name : IsQualifiedName t.name
  arguments : IsTypeArguments t.arguments

variable {t : WrittenType}

theorem IsShaped.isSpelled (h : t.IsShaped) : t.IsSpelled :=
  ⟨h.name.isSpelledName, h.arguments.isAngled⟩

theorem mem_suffixMarks {n : Nat} {c : Char} (h : c ∈ brackets n) : c ∈ suffixMarks := by
  rcases Descriptor.mem_brackets h with rfl | rfl <;> decide

theorem IsShaped.isNested_text (h : t.IsShaped) : IsNested t.text := by
  have hmarks : ∀ c ∈ suffixMarks, c ∉ "<>(".toList := forall_mem_of_all (by decide)
  have hbrackets : IsNested (brackets t.depth) :=
    isNested_of_forall fun c hc => hmarks c (mem_suffixMarks hc)
  exact h.name.isNested.append (h.arguments.isNested.append hbrackets)

theorem IsShaped.ampersand_notMem_text (h : t.IsShaped) (harguments : t.arguments = []) :
    '&' ∉ t.text := by
  rw [text, harguments, List.nil_append, List.mem_append]
  rintro (hm | hm)
  · exact h.name.not_mem (by decide) hm
  · exact absurd (mem_suffixMarks hm) (by decide)

/-- A type may stand in every list, between its separators. -/
theorem IsShaped.isItem (h : t.IsShaped) {sep : Char}
    (hsep : sep ∈ delimitersBut suffixMarks) : Text.IsItem sep t.text := by
  have hname := h.name.isItem (delimitersBut_suffixMarks_subset hsep)
  have hbrackets : ∀ c ∈ brackets t.depth, c ∈ suffixMarks := fun _ => mem_suffixMarks
  have harguments : Text.IsItem sep (t.name ++ t.arguments) := by
    rcases h.arguments with hnil | ⟨inner, harguments, hinner⟩
    · rwa [hnil, List.append_nil]
    · rw [harguments]
      exact hname.append (Text.isPiece_group hinner.balanced)
        fun _ => IsAngled.not_blank_last (Or.inr ⟨inner, rfl⟩)
  rw [text, ← List.append_assoc]
  exact harguments.append (isPiece_suffix hbrackets hsep) fun _ => not_blank_of_suffix hbrackets

/-- Type arguments are dropped, and what stands behind the type is kept. -/
theorem IsSpelled.withoutArguments_append (h : t.IsSpelled) {s : Text}
    (hs : ∀ c ∈ s, c ∈ suffixMarks) : TypeText.withoutArguments (t.text ++ s) = t.read ++ s := by
  have hmarks : '<' ∉ suffixMarks ∧ '>' ∉ suffixMarks := by decide
  have hname : '<' ∉ t.name := h.name.not_mem (by decide)
  have hsuffix : ∀ c ∈ brackets t.depth ++ s, c ∈ suffixMarks := by
    intro c hc
    rcases List.mem_append.mp hc with hc | hc
    · exact mem_suffixMarks hc
    · exact hs c hc
  rcases h.arguments with hnil | ⟨inner, harguments⟩
  · have htext : t.text ++ s = t.name ++ (brackets t.depth ++ s) := by simp [text, hnil]
    rw [htext, TypeText.withoutArguments_eq_self, read, List.append_assoc]
    rw [List.mem_append]
    rintro (hm | hm)
    · exact hname hm
    · exact hmarks.1 (hsuffix _ hm)
  · have htext : t.text ++ s = t.name ++ '<' :: (inner ++ '>' :: (brackets t.depth ++ s)) := by
      simp [text, harguments]
    rw [htext, TypeText.withoutArguments_append hname fun hm => hmarks.2 (hsuffix _ hm), read,
      List.append_assoc]

/-- A type is read without its arguments. -/
theorem IsSpelled.withoutArguments_text (h : t.IsSpelled) :
    TypeText.withoutArguments t.text = t.read := by
  have htext := h.withoutArguments_append (s := []) (by simp)
  simpa using htext

/-- No type ends with a dot. -/
theorem IsSpelled.getLast?_read (h : t.IsSpelled) : t.read.getLast? ≠ some '.' := by
  cases hd : t.depth with
  | zero =>
    obtain ⟨rest, c, hc, hn⟩ := h.name.last
    have hne : c ≠ '.' := ne_of_isNameChar hn (by decide)
    simpa [read, hd, hc, brackets] using hne
  | succ n => simp [read, hd, Descriptor.brackets_concat]

end WrittenType

namespace WrittenParam

open Descriptor (brackets)

/-- What stands behind the type. -/
def suffix (p : WrittenParam) : Text := if p.dots then "...".toList else []

/-- The parameter as it is written. -/
def text (p : WrittenParam) : Text := p.type.text ++ p.suffix

/-- The type of the parameter as it is read, with brackets for its dots. -/
def read (p : WrittenParam) : Text := p.type.name ++ brackets (p.type.depth + p.dots.toNat)

variable {p : WrittenParam}

theorem mem_suffixMarks {c : Char} (h : c ∈ p.suffix) : c ∈ suffixMarks := by
  have hdots : ∀ c ∈ "...".toList, c ∈ suffixMarks := forall_mem_of_all (by decide)
  rw [suffix] at h
  split at h
  · exact hdots c h
  · cases h

/-- A parameter may stand in every list, between its separators. -/
theorem isItem (h : p.type.IsShaped) {sep : Char} (hsep : sep ∈ delimitersBut suffixMarks) :
    Text.IsItem sep p.text :=
  (h.isItem hsep).append (isPiece_suffix (fun _ => mem_suffixMarks) hsep)
    fun _ => not_blank_of_suffix fun _ => mem_suffixMarks

theorem ampersand_notMem_text (h : p.type.IsShaped) (harguments : p.type.arguments = []) :
    '&' ∉ p.text := by
  rw [text, List.mem_append]
  rintro (hm | hm)
  · exact h.ampersand_notMem_text harguments hm
  · exact absurd (mem_suffixMarks hm) (by decide)

theorem withoutArguments_text (h : p.type.IsSpelled) :
    TypeText.withoutArguments p.text = p.type.read ++ p.suffix :=
  h.withoutArguments_append fun _ => mem_suffixMarks

theorem varargsComponent?_read (h : p.type.IsSpelled) :
    TypeText.varargsComponent? (p.type.read ++ p.suffix) =
      if p.dots then some p.type.read else none := by
  rw [suffix]
  split
  · exact TypeText.varargsComponent?_dots _
  · rw [List.append_nil]
    exact TypeText.varargsComponent?_eq_none h.getLast?_read

/-- The dots at the end of a parameter are seen. -/
theorem isVarargs_text (h : p.type.IsSpelled) :
    TypeText.isVarargs (TypeText.withoutArguments p.text) = p.dots := by
  rw [withoutArguments_text h, TypeText.isVarargs, varargsComponent?_read h]
  cases p.dots <;> rfl

/-- **A parameter is read without its arguments and with brackets for its dots.** -/
theorem varargsAsArray_text (h : p.type.IsSpelled) :
    TypeText.varargsAsArray (TypeText.withoutArguments p.text) = p.read := by
  rw [withoutArguments_text h, TypeText.varargsAsArray, varargsComponent?_read h, read, suffix]
  cases p.dots with
  | true => simp [Descriptor.brackets_concat, WrittenType.read]
  | false => simp [WrittenType.read]

/-! ### Looking a parameter up -/

/-- The array dimensions of a parameter, one for its dots. -/
def dimensions (p : WrittenParam) : Nat := p.type.depth + p.dots.toNat

/-- Blanks around a parameter are trimmed, and no more. -/
theorem trim_text (h : p.type.IsSpelled) (before after : Text)
    (hbefore : ∀ c ∈ before, isBlank c = true) (hafter : ∀ c ∈ after, isBlank c = true) :
    Text.trim (before ++ (p.text ++ after)) = p.text := by
  have hhead : ∃ c rest, p.text = c :: rest ∧ isBlank c = false := by
    obtain ⟨c, rest, hname, hc⟩ := h.name.head
    exact ⟨c, _, by rw [text, WrittenType.text, hname]; rfl, isBlank_of_isNameChar hc⟩
  have hlast : ∃ rest c, p.text = rest ++ [c] ∧ isBlank c = false := by
    obtain ⟨rest, c, hname, hc⟩ := h.name.last
    have hbrackets : ∀ c ∈ brackets p.type.depth, c ∈ suffixMarks :=
      fun _ => WrittenType.mem_suffixMarks
    have htext : p.text = p.type.name ++ p.type.arguments ++ brackets p.type.depth ++ p.suffix := by
      simp [text, WrittenType.text]
    rw [htext]
    refine Text.exists_last_append (Text.exists_last_append (Text.exists_last_append
      ⟨rest, c, hname, isBlank_of_isNameChar hc⟩ ?_) ?_) ?_
    · exact fun _ => h.arguments.not_blank_last
    · exact fun _ => not_blank_of_suffix hbrackets
    · exact fun _ => not_blank_of_suffix fun _ => mem_suffixMarks
  rw [Text.trim_blanks_append hbefore, Text.trim_append_blanks after hhead hlast hafter]

/-- **A parameter is looked up by its name and its dimensions**, whatever its type arguments are and
whatever blanks stand around it. -/
theorem lookupName_text (h : p.type.IsSpelled) (before after : Text)
    (hbefore : ∀ c ∈ before, isBlank c = true) (hafter : ∀ c ∈ after, isBlank c = true) :
    TypeText.lookupName (before ++ (p.text ++ after)) =
      TypeText.arrayLookup p.dimensions p.type.name := by
  have hbracket : '[' ∉ p.type.name := h.name.not_mem (by decide)
  have hbase : (TypeText.varargsComponent? (p.type.read ++ p.suffix)).getD
      (p.type.read ++ p.suffix) = p.type.read := by
    rw [varargsComponent?_read h, suffix]
    cases p.dots <;> simp
  have hdots : (if TypeText.isVarargs (p.type.read ++ p.suffix) then 1 else 0) = p.dots.toNat := by
    rw [← withoutArguments_text h, isVarargs_text h]
    cases p.dots <;> rfl
  simp only [TypeText.lookupName]
  rw [trim_text h before after hbefore hafter, withoutArguments_text h, hbase, hdots,
    WrittenType.read, TypeText.bracketCount_append hbracket, TypeText.bracketCount_brackets,
    TypeText.beforeBrackets_append hbracket,
    Text.trim_eq_self_of_forall fun _ => h.name.not_blank, dimensions]

end WrittenParam

end JvmSignature
