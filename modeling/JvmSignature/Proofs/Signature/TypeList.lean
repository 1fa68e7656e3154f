import JvmSignature.ClassTable.Platform
import JvmSignature.Proofs.ClassTable.Resolution

/-!
# The two spellings of a list of types

A list of types is written by the encodings of the types, one after the other, or by their names
with commas between them. Which of the two a text is meant to be is guessed: a text that can be read
as encodings is read so. From there on the types take different ways. An encoded primitive type is
not asked for at all, and a name is taken apart and put together again before it is.

Both ways end in the same questions to the class table, in the same order (`resolveList_encodings`,
`resolveList_names`). So the two spellings of a list have one result, and where a class is missing,
they blame the same type (`resolveList_spellings`).
-/

namespace JvmSignature

/-- Whether a type can be written in a list in both spellings. -/
structure Descriptor.IsListed (d : Descriptor) : Prop where
  named : d.IsNamed
  /-- `void` is no parameter, and there are no arrays of it. -/
  not_void : d.element ≠ .primitive .void
  /-- The guess goes wrong for a class such as `DI`. -/
  noRun : d.IsNoRun

instance : DecidablePred Descriptor.IsListed := fun d =>
  decidable_of_iff (d.IsNamed ∧ d.element ≠ .primitive .void ∧ d.IsNoRun)
    ⟨fun ⟨h, hv, hno⟩ => ⟨h, hv, hno⟩, fun h => ⟨h.named, h.not_void, h.noRun⟩⟩

theorem Descriptor.IsListed.isField {d : Descriptor} (h : d.IsListed) : d.IsField :=
  Element.isField h.named h.not_void

/-- A text in parentheses is not trimmed. -/
theorem Text.trim_parens (s : Text) : Text.trim ('(' :: (s ++ [')'])) = '(' :: (s ++ [')']) := by
  refine trim_eq_self ?_ ?_
  · rintro c ⟨⟩
    decide
  · intro c hc
    rw [← List.cons_append, List.getLast?_concat] at hc
    cases hc
    decide

namespace ClassTable

variable {t : ClassTable} {ds : List Descriptor}

/-! ## Questions to the class table -/

/-- Whether the class of a type is there. A primitive type has none, and neither has an array of
one. -/
def HoldsClass (t : ClassTable) (d : Descriptor) : Prop :=
  ∀ name, d.element = .reference name → t.contains name = true

theorem knows_iff_holdsClass {d : Descriptor} (hv : d.element ≠ .primitive .void) :
    t.knows d = true ↔ t.HoldsClass d := by
  unfold HoldsClass knows
  cases he : d.element with
  | reference name =>
    constructor
    · rintro h _ ⟨⟩
      exact h
    · intro h
      exact h name rfl
  | primitive p =>
    rw [he] at hv
    refine iff_of_true ?_ nofun
    cases p <;> first | rfl | exact absurd rfl hv

/-- **An encoded type is asked for** under its binary name, and a primitive type would be found. -/
theorem resolveDescriptor_eq_answer {d : Descriptor} (h : d.IsNormal) (hkey : d.IsKeyed)
    (hv : d.element ≠ .primitive .void) : t.typeSystem.resolveDescriptor d = t.answer d := by
  unfold TypeSystem.resolveDescriptor
  split
  · next hp =>
    have hk : t.knows d = true := (knows_iff_holdsClass hv).mpr fun name he => by
      obtain ⟨e, depth⟩ := d
      obtain rfl : e = .reference name := he
      cases hp
    exact (answer_of_knows hk).symm
  · have hresolve : t.typeSystem.resolve? d.binaryName = if t.knows d then some d else none :=
      resolve?_binaryName h hkey
    rw [hresolve]
    cases hk : t.knows d with
    | true => exact (answer_of_knows hk).symm
    | false => exact (answer_of_not_knows hk).symm

/-! ## The two spellings -/

/-- **What is read as a list of encodings is asked for type by type**, if all of the types are read
from their binary names. -/
theorem resolveList_eq_answers {s : Text} (h : Descriptor.ofList s.trim = .ok ds)
    (hkey : ∀ d ∈ ds, d.IsKeyed) : t.typeSystem.resolveList s = ds.mapM t.answer := by
  rw [TypeSystem.resolveList, h]
  refine mapM_congr fun d hd => ?_
  obtain ⟨hnormal, hfield⟩ := Descriptor.isNormal_of_ofList h hd
  exact resolveDescriptor_eq_answer hnormal (hkey d hd) hfield.not_void

/-- A list of encodings is asked for type by type, with slashes or dots in it. -/
theorem resolveList_encodings (h : ∀ d ∈ ds, d.IsListed) {encodings : Text}
    (hs : encodings.dotted = ds.flatMap Descriptor.encode) :
    t.typeSystem.resolveList ('(' :: (encodings ++ [')'])) = ds.mapM t.answer := by
  refine resolveList_eq_answers ?_ fun d hd => (h d hd).named.isKeyed
  rw [Text.trim_parens, Descriptor.ofList_parens]
  exact Descriptor.ofRun_eq_ok_iff.mpr ⟨hs, fun d hd => (h d hd).isField⟩

/-- **A list of names is asked for type by type.** -/
theorem resolveList_names (h : ∀ d ∈ ds, d.IsListed) :
    t.typeSystem.resolveList ('(' :: (Descriptor.joinedNames ds ++ [')'])) = ds.mapM t.answer := by
  rw [TypeSystem.resolveList, Text.trim_parens, Descriptor.ofList_parens,
    Descriptor.unparenthesized_parens]
  have hnamed : ∀ d ∈ ds, d.IsNamed := fun d hd => (h d hd).named
  cases hrun : Descriptor.ofRun (Descriptor.joinedNames ds) with
  | error e =>
    have hasked := resolveNames_eq_answers (t := t) fun d hd =>
      ⟨(h d hd).named, Or.inr (h d hd).not_void⟩
    simp only [TypeSystem.resolveNames]
    rw [Descriptor.splitTopLevel_joinedNames hnamed, hasked]
  | ok types =>
    obtain ⟨rfl, rfl⟩ :=
      Descriptor.eq_nil_of_ofRun_joinedNames hnamed (fun d hd => (h d hd).noRun) hrun
    rfl

/-- All classes of a list are there, or there is a first type whose class is not. -/
theorem holdsClass_or_first (h : ∀ d ∈ ds, d.element ≠ .primitive .void) :
    (∀ d ∈ ds, t.HoldsClass d) ∨ ∃ before d after, ds = before ++ d :: after ∧
      (∀ e ∈ before, t.HoldsClass e) ∧ ¬t.HoldsClass d := by
  cases hfind : ds.find? fun d => !t.knows d with
  | none =>
    refine Or.inl fun d hd => (knows_iff_holdsClass (h d hd)).mp ?_
    simpa using List.find?_eq_none.mp hfind d hd
  | some d =>
    obtain ⟨hd, before, after, rfl, hbefore⟩ := List.find?_eq_some_iff_append.mp hfind
    refine Or.inr ⟨before, d, after, rfl, fun e he => ?_, fun hheld => ?_⟩
    · refine (knows_iff_holdsClass (h e (List.mem_append_left _ he))).mp ?_
      simpa using hbefore e he
    · have hv := h d (List.mem_append_right _ List.mem_cons_self)
      rw [(knows_iff_holdsClass hv).mpr hheld] at hd
      cases hd

/--
**The two spellings of a list of types have the same result.** Where the classes of all types are
there, it is the types, in their order; otherwise it is the fault that names the first type whose
class is missing.
-/
theorem resolveList_spellings (t : ClassTable) (h : ∀ d ∈ ds, d.IsListed) {encodings : Text}
    (hs : encodings.dotted = ds.flatMap Descriptor.encode) :
    ∃ result,
      t.typeSystem.resolveList ('(' :: (encodings ++ [')'])) = result ∧
      t.typeSystem.resolveList ('(' :: (Descriptor.joinedNames ds ++ [')'])) = result ∧
      ((∀ d ∈ ds, t.HoldsClass d) ∧ result = .ok ds ∨
        ∃ before d after, ds = before ++ d :: after ∧ (∀ e ∈ before, t.HoldsClass e) ∧
          ¬t.HoldsClass d ∧ result = .error (.unknownType d.name)) := by
  refine ⟨ds.mapM t.answer, resolveList_encodings h hs, resolveList_names h, ?_⟩
  have hvoid : ∀ d ∈ ds, d.element ≠ .primitive .void := fun d hd => (h d hd).not_void
  rcases holdsClass_or_first (t := t) hvoid with hall | ⟨before, d, after, rfl, hbefore, hd⟩
  · exact Or.inl ⟨hall, answers_of_knows fun d hd => (knows_iff_holdsClass (hvoid d hd)).mpr
      (hall d hd)⟩
  · refine Or.inr ⟨before, d, after, rfl, hbefore, hd, answers_of_first (fun e he => ?_) ?_⟩
    · exact (knows_iff_holdsClass (hvoid e (List.mem_append_left _ he))).mpr (hbefore e he)
    · rw [← knows_iff_holdsClass (hvoid d (List.mem_append_right _ List.mem_cons_self))] at hd
      exact Bool.eq_false_iff.mpr hd

/-- In both spellings of a list with two missing classes the first one is blamed, even one whose
name looks like `void`. -/
theorem resolveList_spellings_platform :
    let ds : List Descriptor := [⟨.reference "java.lang.String".toList, 1⟩,
      ⟨.reference "V".toList, 0⟩, ⟨.reference "a.B".toList, 2⟩]
    (∀ d ∈ ds, d.IsListed) ∧
      Text.dotted "[Ljava/lang/String;LV;[[La/B;".toList = ds.flatMap Descriptor.encode ∧
      platform.typeSystem.resolveList "([Ljava/lang/String;LV;[[La/B;)".toList =
        .error (.unknownType "V".toList) ∧
      platform.typeSystem.resolveList "(java.lang.String[], V, a.B[][])".toList =
        .error (.unknownType "V".toList) := by
  intro ds
  have hlisted : ∀ d ∈ ds, d.IsListed := by decide +kernel
  have hspelled : Text.dotted "[Ljava/lang/String;LV;[[La/B;".toList =
      ds.flatMap Descriptor.encode := by decide
  have hmissing : ¬platform.HoldsClass ⟨.reference "V".toList, 0⟩ := fun hheld =>
    absurd (hheld _ rfl) (by decide +kernel)
  obtain ⟨result, hencoded, hnamed, ⟨hall, -⟩ | ⟨before, d, after, hds, hbefore, hd, hresult⟩⟩ :=
    resolveList_spellings platform hlisted hspelled
  · exact absurd (hall _ (by decide)) hmissing
  · change [_, _, _] = before ++ d :: after at hds
    match before with
    | [] =>
      cases hds
      exact absurd (fun _ hname => by cases hname; decide +kernel) hd
    | [_] =>
      cases hds
      subst hresult
      exact ⟨hlisted, hspelled, hencoded, hnamed⟩
    | _ :: e :: rest =>
      have he : ⟨.reference "V".toList, 0⟩ = e := (List.cons.inj (List.cons.inj hds).2).1
      exact absurd (he ▸ hbefore e (by simp)) hmissing

end ClassTable

end JvmSignature
