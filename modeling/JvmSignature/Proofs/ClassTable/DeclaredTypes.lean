import JvmSignature.ClassTable.Platform
import JvmSignature.Proofs.ClassTable.Resolution
import Mathlib.Data.List.DropRight

/-!
# What a declared type means

A declaration writes a type by its name, with slashes or dots, then its type arguments, a pair of
brackets for each array dimension, and perhaps dots for one more. What it means depends on the name
and the number of dimensions alone (`Denotes`).

The reader of such a type makes the name of a class file of it, which the class table reads in its
turn. For that reader slashes are dots (`ofTypeName_dotted_eq_ok_iff`), so it may as well be given
the binary name of the type that is meant, which it is known to read.
-/

namespace JvmSignature

open Text (dotted dotted_eq_self slash_not_mem_dotted)

theorem Text.dotted_dotted (s : Text) : dotted (dotted s) = dotted s :=
  dotted_eq_self (slash_not_mem_dotted s)

/-! ## Slashes in names -/

namespace Descriptor

variable {s : Text} {d : Descriptor}

theorem ofField_dotted_eq_ok_iff : ofField (dotted s) = .ok d ↔ ofField s = .ok d := by
  rw [ofField_eq_ok_iff, ofField_eq_ok_iff, Text.dotted_dotted]

theorem ofPlainName_dotted_eq_ok_iff :
    ofPlainName (dotted s) = .ok d ↔ ofPlainName s = .ok d := by
  have hany : (dotted s).any isNameDelimiter = s.any isNameDelimiter := by
    rw [dotted, List.any_map, Text.comp_dotted (by decide)]
  have hclass : reference (dotted s) = reference s := by
    rw [reference, Element.ofName, Text.dotted_dotted, reference, Element.ofName]
  unfold ofPlainName
  rw [Primitive.ofName?_dotted, hany, hclass]
  cases Primitive.ofName? s with
  | some p => rfl
  | none => by_cases h : s.any isNameDelimiter = true <;> simp [h]

theorem ofReversedName_brackets_eq_ok_iff {base : Text} :
    ofReversedName (']' :: '[' :: base) = .ok d ↔
      ∃ e, ofReversedName base = .ok e ∧ e ≠ .primitive .void ∧ d = e.array 1 := by
  rw [ofReversedName_brackets]
  cases ofReversedName base with
  | error f => simp
  | ok e =>
    by_cases hvoid : e = .primitive .void
    · simp [hvoid]
    · simp [hvoid, eq_comm]

/-- The pairs of brackets at the end of a name are the same with its slashes turned, and so is the
name before them. -/
theorem ofReversedName_dotted_eq_ok_iff (s : Text) (d : Descriptor) :
    ofReversedName (dotted s) = .ok d ↔ ofReversedName s = .ok d := by
  have hdrop : dotted (s.dropWhile isBlank) = (dotted s).dropWhile isBlank :=
    Text.dotted_dropWhile (by decide) s
  rw [← ofReversedName_dropWhile s, ← ofReversedName_dropWhile (dotted s), ← hdrop]
  -- Before the last pair of brackets stands a shorter name, of which the same is to be shown.
  by_cases h : ∃ base, s.dropWhile isBlank = ']' :: '[' :: base
  · obtain ⟨base, hbase⟩ := h
    have hshort : base.length < s.length := length_lt_of_dropWhile_eq hbase
    have hdots : dotted (']' :: '[' :: base) = ']' :: '[' :: dotted base := rfl
    rw [hbase, hdots, ofReversedName_brackets_eq_ok_iff, ofReversedName_brackets_eq_ok_iff]
    refine exists_congr fun e => and_congr_left fun _ => ?_
    exact ofReversedName_dotted_eq_ok_iff base e
  · have hname : ∀ base, dotted (s.dropWhile isBlank) ≠ ']' :: '[' :: base := by
      intro base hdots
      obtain ⟨t, hs, ht⟩ := (Text.dotted_eq_cons_iff (by decide) (by decide)).mp hdots
      obtain ⟨base', rfl, -⟩ := (Text.dotted_eq_cons_iff (by decide) (by decide)).mp ht
      exact h ⟨base', hs⟩
    have hname' : ∀ base, s.dropWhile isBlank ≠ ']' :: '[' :: base := fun base hb => h ⟨base, hb⟩
    rw [ofReversedName_eq_ofPlainName (List.dropWhile_idempotent _ _) hname',
      ofReversedName_eq_ofPlainName (by rw [hdrop, List.dropWhile_idempotent]) hname,
      ← Text.dotted_reverse, ofPlainName_dotted_eq_ok_iff]
termination_by s.length

/-- **The reader of names takes slashes for dots.** -/
theorem ofTypeName_dotted_eq_ok_iff : ofTypeName (dotted s) = .ok d ↔ ofTypeName s = .ok d := by
  have htrim : (dotted s).trim = dotted s.trim := (Text.dotted_trim s).symm
  cases hs : s.trim with
  | nil =>
    rw [ofTypeName, htrim, hs, ofTypeName, hs]
    simp [dotted]
  | cons c rest =>
    by_cases hc : c = '['
    · subst hc
      have hcons : dotted ('[' :: rest) = '[' :: dotted rest := rfl
      rw [ofTypeName_eq_ofField hs, ofTypeName_eq_ofField (by rw [htrim, hs, hcons]), ← hcons,
        ofField_dotted_eq_ok_iff]
    · have hcons : dotted (c :: rest) = (if c = '/' then '.' else c) :: dotted rest := rfl
      have hc' : (if c = '/' then '.' else c) ≠ '[' :=
        mt (Text.turned_eq_iff (by decide) (by decide)).mp hc
      rw [ofTypeName_eq_ofReversedName hs hc,
        ofTypeName_eq_ofReversedName (by rw [htrim, hs, hcons]) hc', ← hcons,
        ← Text.dotted_reverse, ofReversedName_dotted_eq_ok_iff]

/-- The encoding of an array of `void` is not read. -/
theorem ofTypeName_voids (n : Nat) : ofTypeName (encode ⟨.primitive .void, n + 1⟩) ≠ .ok d := by
  have hread : read? (encode ⟨.primitive .void, n + 1⟩) = none := by
    rw [encode, read?_dimensions (n + 1) (by simp [Element.encode, Primitive.code])]
    rfl
  rw [ofTypeName_encode_eq_ofField (Nat.succ_pos n), ofField, hread]
  simp

end Descriptor

/-! ## What a name means -/

/-- The element of a name: the primitive type of a keyword, and the class of any other name. -/
def Element.spelled (name : Text) : Element :=
  match Primitive.ofName? name with
  | some p => .primitive p
  | none => .ofName name

namespace Element

variable {name : Text}

theorem spelled_of_keyword {p : Primitive} (h : Primitive.ofName? name = some p) :
    spelled name = .primitive p := by
  rw [spelled, h]

theorem spelled_of_class (h : Primitive.ofName? name = none) : spelled name = .ofName name := by
  rw [spelled, h]

theorem name_spelled (name : Text) : (spelled name).name = name.dotted := by
  cases h : Primitive.ofName? name with
  | some p =>
    rw [spelled_of_keyword h, Element.name, ← Primitive.ofName?_eq_some_iff.mp h, p.dotted_name]
  | none =>
    rw [spelled_of_class h]
    rfl

theorem isNamed_spelled (h : IsSpelledName name) : (spelled name).IsNamed := by
  cases hn : Primitive.ofName? name with
  | some p =>
    rw [spelled_of_keyword hn]
    trivial
  | none =>
    rw [spelled_of_class hn]
    exact ⟨h, (Primitive.ofName?_dotted name).trans hn⟩

end Element

namespace TypeText

/-- The name under which a declared type is looked up is the binary name of the type that it means,
but for its slashes. -/
theorem dotted_arrayLookup (depth : Nat) (name : Text) :
    dotted (arrayLookup depth name) = Descriptor.binaryName ⟨.spelled name, depth⟩ := by
  rw [arrayLookup, Descriptor.binaryName]
  split
  · exact (Element.name_spelled name).symm
  · have helement : dotted (encodedElement name) = (Element.spelled name).encode := by
      cases h : Primitive.ofName? name with
      | some p =>
        rw [encodedElement, h, Element.spelled_of_keyword h]
        exact dotted_eq_self fun hm => p.code_ne.1 (List.mem_singleton.mp hm).symm
      | none =>
        rw [encodedElement, h, Element.spelled_of_class h]
        simp [dotted, Element.ofName, Element.encode]
    rw [Text.dotted_append, helement, Descriptor.dotted_eq_dimensions_iff.mpr rfl,
      Descriptor.encode]

end TypeText

namespace ClassTable

variable {t : ClassTable} {name : Text} {depth : Nat} {d : Descriptor}

theorem resolve?_dotted (t : ClassTable) (s : Text) : t.resolve? (dotted s) = t.resolve? s :=
  Option.ext fun d => by
    rw [resolve?_eq_some_iff, resolve?_eq_some_iff, Descriptor.ofTypeName_dotted_eq_ok_iff]

/-- **What a declared type means is found if it is known.** -/
theorem resolve?_arrayLookup (h : IsSpelledName name) :
    t.resolve? (TypeText.arrayLookup depth name) =
      if t.knows ⟨.spelled name, depth⟩ then some ⟨.spelled name, depth⟩ else none := by
  have hnamed : Descriptor.IsNamed ⟨.spelled name, depth⟩ := Element.isNamed_spelled h
  rw [← resolve?_dotted, TypeText.dotted_arrayLookup]
  by_cases hvoid : depth = 0 ∨ Element.spelled name ≠ .primitive .void
  · exact resolve?_binaryName (hnamed.isNormal hvoid) hnamed.isKeyed
  · -- Neither is an array of `void` known, nor is its binary name read.
    obtain ⟨hdepth, hv⟩ : depth ≠ 0 ∧ Element.spelled name = .primitive .void := by
      simpa using hvoid
    obtain ⟨n, rfl⟩ := Nat.exists_eq_succ_of_ne_zero hdepth
    have hunknown : t.knows ⟨.primitive .void, n + 1⟩ = false := rfl
    rw [hv, hunknown, if_neg Bool.false_ne_true, Option.eq_none_iff_forall_ne_some]
    exact fun d hd => Descriptor.ofTypeName_voids n (resolve?_eq_some_iff.mp hd).1

/-- Which type a name under array dimensions denotes, if there is one: the primitive type of a
keyword, of which only `void` has no arrays, or else the class of that name, if the table holds it
under the name with dots. -/
inductive Denotes (t : ClassTable) (name : Text) (depth : Nat) : Descriptor → Prop
  | primitive {p : Primitive} (hname : p.name = name) (hvoid : p ≠ .void ∨ depth = 0) :
      Denotes t name depth ((Descriptor.primitive p).array depth)
  | reference (hname : Primitive.ofName? name = none) (hclass : t.contains name.dotted = true) :
      Denotes t name depth ((Descriptor.reference name).array depth)

theorem knows_primitive_iff {p : Primitive} :
    t.knows ((Descriptor.primitive p).array depth) = true ↔ p ≠ .void ∨ depth = 0 := by
  cases p <;> simp [knows, Descriptor.primitive, Descriptor.array]

theorem knows_reference_iff :
    t.knows ((Descriptor.reference name).array depth) = true ↔ t.contains name.dotted = true :=
  Iff.rfl

theorem denotes_iff :
    t.Denotes name depth d ↔ d = ⟨.spelled name, depth⟩ ∧ t.knows d = true := by
  have harray : ∀ e : Element, (⟨e, depth⟩ : Descriptor) = (⟨e, 0⟩ : Descriptor).array depth :=
    fun e => by rw [Descriptor.array, Nat.zero_add]
  constructor
  · intro h
    cases h with
    | @primitive p hname hvoid =>
      rw [Element.spelled_of_keyword (Primitive.ofName?_eq_some_iff.mpr hname), harray]
      exact ⟨rfl, knows_primitive_iff.mpr hvoid⟩
    | reference hname hclass =>
      rw [Element.spelled_of_class hname, harray]
      exact ⟨rfl, knows_reference_iff.mpr hclass⟩
  · rintro ⟨rfl, hknows⟩
    cases hname : Primitive.ofName? name with
    | some p =>
      rw [Element.spelled_of_keyword hname, harray] at hknows ⊢
      exact .primitive (Primitive.ofName?_eq_some_iff.mp hname) (knows_primitive_iff.mp hknows)
    | none =>
      rw [Element.spelled_of_class hname, harray] at hknows ⊢
      exact .reference hname (knows_reference_iff.mp hknows)

/-! ## Resolving declared types -/

/-- **A declared type is what its name and its dimensions mean**, or it is not known. -/
theorem resolveName_text {p : WrittenParam} (h : p.type.IsSpelled) (before after : Text)
    (hbefore : ∀ c ∈ before, isBlank c = true) (hafter : ∀ c ∈ after, isBlank c = true) :
    t.typeSystem.resolveName (before ++ (p.text ++ after)) =
      if t.knows ⟨.spelled p.type.name, p.dimensions⟩ then .ok ⟨.spelled p.type.name, p.dimensions⟩
      else .error (.unknownType (before ++ (p.text ++ after))) := by
  have hresolve : t.typeSystem.resolve? (TypeText.arrayLookup p.dimensions p.type.name) =
      if t.knows ⟨.spelled p.type.name, p.dimensions⟩ then
        some ⟨.spelled p.type.name, p.dimensions⟩ else none :=
    resolve?_arrayLookup h.name
  rw [TypeSystem.resolveName, WrittenParam.lookupName_text h before after hbefore hafter, hresolve]
  cases t.knows ⟨.spelled p.type.name, p.dimensions⟩ <;> rfl

theorem resolveName_text_eq_ok_iff {p : WrittenParam} (h : p.type.IsSpelled) (before after : Text)
    (hbefore : ∀ c ∈ before, isBlank c = true) (hafter : ∀ c ∈ after, isBlank c = true) :
    t.typeSystem.resolveName (before ++ (p.text ++ after)) = .ok d ↔
      t.Denotes p.type.name p.dimensions d := by
  rw [resolveName_text h before after hbefore hafter, denotes_iff]
  split
  · next hknows =>
    rw [Except.ok.injEq]
    exact ⟨fun hd => ⟨hd.symm, hd ▸ hknows⟩, fun hd => hd.1.symm⟩
  · next hknows =>
    refine iff_of_false (by simp) ?_
    rintro ⟨rfl, hk⟩
    exact hknows hk

/--
**Declared types are resolved to what they denote.** Of a parameter that is written by a name with
slashes or dots, anything between angle brackets, pairs of brackets and dots at its end, with blanks
around it:

1. It is resolved to a type exactly when the name denotes this type under the array dimensions, dots
   counting as one.
2. If the name denotes nothing, the fault is the text as it was given.
3. Another text with the same name and as many dimensions is resolved to the same types, so `X...`
   to what `X[]` is, and type arguments do not count.
-/
theorem resolveName_eq_ok_iff_denotes (t : ClassTable) {p : WrittenParam} (h : p.type.IsSpelled)
    (before after : Text) (hbefore : ∀ c ∈ before, isBlank c = true)
    (hafter : ∀ c ∈ after, isBlank c = true) :
    let token := before ++ (p.text ++ after)
    (∀ d, t.typeSystem.resolveName token = .ok d ↔ t.Denotes p.type.name p.dimensions d) ∧
    ((∀ d, ¬ t.Denotes p.type.name p.dimensions d) →
      t.typeSystem.resolveName token = .error (.unknownType token)) ∧
    ∀ q : WrittenParam, q.type.IsSpelled → q.type.name = p.type.name →
      q.dimensions = p.dimensions →
      ∀ d, t.typeSystem.resolveName q.text = .ok d ↔ t.typeSystem.resolveName token = .ok d := by
  intro token
  refine ⟨fun d => resolveName_text_eq_ok_iff h before after hbefore hafter, fun hnone => ?_,
    fun q hq hname hdimensions d => ?_⟩
  · have hunknown : ¬ t.knows ⟨.spelled p.type.name, p.dimensions⟩ = true := fun hknows =>
      hnone _ (denotes_iff.mpr ⟨rfl, hknows⟩)
    rw [resolveName_text h before after hbefore hafter, if_neg hunknown]
  · have hplain : t.typeSystem.resolveName q.text = .ok d ↔
        t.Denotes q.type.name q.dimensions d := by
      have hblanks := resolveName_text_eq_ok_iff (t := t) (d := d) hq [] [] (by simp) (by simp)
      rwa [List.nil_append, List.append_nil] at hblanks
    rw [hplain, hname, hdimensions, resolveName_text_eq_ok_iff h before after hbefore hafter]

/-- An array of lists, with brackets and dots among its type arguments and behind them, the same
without arguments, and an array of `void`, which is none. -/
theorem resolveName_eq_ok_iff_denotes_lists :
    let ts := ClassTable.platform.typeSystem
    let lists := (Descriptor.reference "java.util.List".toList).array 2
    ts.resolveName "\t java/util/List<int[], T...>[]... ".toList = .ok lists ∧
      ts.resolveName "java/util/List[][]".toList = .ok lists ∧
      ts.resolveName " void...".toList = .error (.unknownType " void...".toList) := by
  intro ts lists
  let varargs : WrittenParam := ⟨⟨"java/util/List".toList, "<int[], T...>".toList, 1⟩, true⟩
  let plain : WrittenParam := ⟨⟨"java/util/List".toList, [], 2⟩, false⟩
  let voids : WrittenParam := ⟨⟨"void".toList, [], 0⟩, true⟩
  have hvarargs : varargs.type.IsSpelled :=
    ⟨by decide +kernel, Or.inr ⟨"int[], T...".toList, rfl⟩⟩
  have hplain : plain.type.IsSpelled := ⟨by decide +kernel, Or.inl rfl⟩
  have hvoids : voids.type.IsSpelled := ⟨by decide +kernel, Or.inl rfl⟩
  have hlists : platform.Denotes varargs.type.name varargs.dimensions lists :=
    .reference (by decide) (by decide +kernel)
  have htab : ∀ c ∈ "\t ".toList, isBlank c = true := forall_mem_of_all (by decide)
  have hspace : ∀ c ∈ " ".toList, isBlank c = true := forall_mem_of_all (by decide)
  obtain ⟨hdenoted, -, hsame⟩ :=
    resolveName_eq_ok_iff_denotes platform hvarargs _ _ htab hspace
  obtain ⟨-, hunknown, -⟩ := resolveName_eq_ok_iff_denotes platform hvoids _ [] hspace (by simp)
  have hfound := (hdenoted lists).mpr hlists
  refine ⟨hfound, (hsame plain hplain rfl rfl lists).mpr hfound, hunknown fun d hd => ?_⟩
  cases hd with
  | @primitive p hname hvoid =>
    have hkeyword : Primitive.ofName? "void".toList = some .void := by decide
    rw [Primitive.ofName?_eq_some_iff.mpr hname, Option.some_inj] at hkeyword
    exact hvoid.elim (fun hne => hne hkeyword) (fun hzero => absurd hzero (by decide))
  | reference hname => exact absurd hname (by decide)

end ClassTable

end JvmSignature
