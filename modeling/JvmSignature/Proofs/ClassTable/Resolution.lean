import JvmSignature.Proofs.Descriptor.BinaryName
import JvmSignature.Signature.TypeList
import Mathlib.Data.List.Forall2

/-!
# Known types are found by their names

A class table is asked for a type by the name that a signature gives it. The name is taken apart
into an element and a number of array dimensions, put together again as the name of a class file,
and read. So the table is asked for the type itself (`resolveName_eq_answer`), and a list of names is
answered up to the first type that is not known.
-/

namespace JvmSignature

/-! ## Asking for the items of a list -/

/-- Two ways of asking that agree on every item of a list agree on the list. -/
theorem mapM_congr {ε α β : Type} {ask tell : α → Except ε β} {as : List α}
    (h : ∀ a ∈ as, ask a = tell a) : as.mapM ask = as.mapM tell := by
  induction as with
  | nil => rfl
  | cons a as ih =>
    obtain ⟨hfirst, hrest⟩ := List.forall_mem_cons.mp h
    rw [List.mapM_cons, List.mapM_cons, hfirst, ih hrest]

/-- Two relations that agree on every item of a list agree on the list. -/
theorem forall₂_congr {α β : Type} {R S : α → β → Prop} {as : List α} {bs : List β}
    (h : ∀ a ∈ as, ∀ b, R a b ↔ S a b) : List.Forall₂ R as bs ↔ List.Forall₂ S as bs := by
  induction as generalizing bs with
  | nil => rw [List.forall₂_nil_left_iff, List.forall₂_nil_left_iff]
  | cons a as ih =>
    obtain ⟨hfirst, hrest⟩ := List.forall_mem_cons.mp h
    simp only [List.forall₂_cons_left_iff, hfirst, ih hrest]

/-- A list is read exactly when each of its items is. -/
theorem mapM_eq_ok_iff {ε α β : Type} {read : α → Except ε β} {as : List α} {bs : List β} :
    as.mapM read = .ok bs ↔ List.Forall₂ (fun a b => read a = .ok b) as bs := by
  induction as generalizing bs with
  | nil =>
    rw [List.mapM_nil, List.forall₂_nil_left_iff]
    exact ⟨fun h => (Except.ok.inj h).symm, fun h => congrArg _ h.symm⟩
  | cons a as ih =>
    rw [List.mapM_cons, List.forall₂_cons_left_iff]
    constructor
    · intro h
      cases ha : read a with
      | error e =>
        rw [ha] at h
        cases h
      | ok b =>
        cases hrest : as.mapM read with
        | error e =>
          rw [ha, hrest] at h
          cases h
        | ok rest =>
          rw [ha, hrest] at h
          cases h
          exact ⟨b, rest, rfl, ih.mp hrest, rfl⟩
    · rintro ⟨b, rest, ha, hrest, rfl⟩
      rw [ha, ih.mpr hrest]
      rfl

/-! ## From a name to the name of a class file -/

namespace TypeText

/-- **A type is looked up under the name of its class file.** -/
theorem lookupName_name {d : Descriptor} (h : d.IsNamed) : lookupName d.name = d.binaryName := by
  let written : WrittenParam := ⟨d.written, false⟩
  have hspelled : written.type.IsSpelled :=
    (Descriptor.isShaped_written (Element.isQualifiedName_name h)).isSpelled
  have htext : [] ++ (written.text ++ []) = d.name := by
    simp [written, WrittenParam.text, WrittenParam.suffix, Descriptor.text_written]
  have helement : arrayLookup d.depth d.element.name = d.binaryName := by
    rw [arrayLookup, Descriptor.binaryName]
    split
    · rfl
    · unfold Descriptor.IsNamed at h
      rw [Descriptor.encode, encodedElement]
      cases he : d.element with
      | primitive p => rw [Element.name, Primitive.ofName?_name, Element.encode]
      | reference n =>
        rw [he] at h
        rw [Element.name, h.2, Element.encode]
  have hlookup := WrittenParam.lookupName_text hspelled [] [] (by simp) (by simp)
  rw [htext] at hlookup
  exact hlookup.trans helement

end TypeText

namespace ClassTable

/-! ## From the name of a class file to the type -/

/-- An array of `void` is not known. -/
theorem not_void_of_knows {t : ClassTable} {d : Descriptor} (h : t.knows d = true) :
    d.depth = 0 ∨ d.element ≠ .primitive .void := by
  by_cases hv : d.element = .primitive .void
  · rw [knows, hv] at h
    exact Or.inl (of_decide_eq_true h)
  · exact Or.inr hv

/-- A name is found when it is read as a type that is known. -/
theorem resolve?_eq_some_iff {t : ClassTable} {name : Text} {d : Descriptor} :
    t.resolve? name = some d ↔ Descriptor.ofTypeName name = .ok d ∧ t.knows d = true := by
  unfold resolve?
  cases Descriptor.ofTypeName name with
  | error e => simp
  | ok d' =>
    simp only [Option.ite_none_right_eq_some, Except.ok.injEq, Option.some.injEq]
    constructor
    · rintro ⟨hk, rfl⟩
      exact ⟨rfl, hk⟩
    · rintro ⟨rfl, hk⟩
      exact ⟨hk, rfl⟩

/-- A type is found under the name of its class file exactly when it is known, if that name is read
as this type. -/
theorem resolve?_binaryName {t : ClassTable} {d : Descriptor} (h : d.IsNormal) (hkey : d.IsKeyed) :
    t.resolve? d.binaryName = if t.knows d then some d else none := by
  rw [resolve?, (Descriptor.ofTypeName_binaryName_iff h).mpr hkey]

/-- What is answered when a type is asked for: the type, or that no type of its name is known. -/
def answer (t : ClassTable) (d : Descriptor) : Except SignatureError Descriptor :=
  if t.knows d then .ok d else .error (.unknownType d.name)

theorem answer_of_knows {t : ClassTable} {d : Descriptor} (hk : t.knows d = true) :
    t.answer d = .ok d := if_pos hk

theorem answer_of_not_knows {t : ClassTable} {d : Descriptor} (hk : t.knows d = false) :
    t.answer d = .error (.unknownType d.name) := by
  rw [answer, hk]
  rfl

/-- **A type is asked for by its name.** -/
theorem resolveName_eq_answer {t : ClassTable} {d : Descriptor} (h : d.IsNamed)
    (hvoid : d.depth = 0 ∨ d.element ≠ .primitive .void) :
    t.typeSystem.resolveName d.name = t.answer d := by
  have hresolve : t.typeSystem.resolve? d.binaryName = if t.knows d then some d else none :=
    resolve?_binaryName (h.isNormal hvoid) h.isKeyed
  rw [TypeSystem.resolveName, TypeText.lookupName_name h, hresolve]
  cases hk : t.knows d with
  | true => exact (answer_of_knows hk).symm
  | false => exact (answer_of_not_knows hk).symm

/-- **A known type is found by its name.** -/
theorem resolveName_name {t : ClassTable} {d : Descriptor} (h : d.IsNamed)
    (hk : t.knows d = true) : t.typeSystem.resolveName d.name = .ok d := by
  rw [resolveName_eq_answer h (not_void_of_knows hk), answer_of_knows hk]

/-! ## Lists of types -/

/-- The types of a list of names are asked for one by one. -/
theorem resolveNames_eq_answers {t : ClassTable} {ds : List Descriptor}
    (h : ∀ d ∈ ds, d.IsNamed ∧ (d.depth = 0 ∨ d.element ≠ .primitive .void)) :
    (ds.map Descriptor.name).mapM t.typeSystem.resolveName = ds.mapM t.answer := by
  rw [List.mapM_map]
  refine mapM_congr fun d hd => ?_
  rw [Function.comp_apply, resolveName_eq_answer (h d hd).1 (h d hd).2]

/-- Known types are all found. -/
theorem answers_of_knows {t : ClassTable} {ds : List Descriptor}
    (hk : ∀ d ∈ ds, t.knows d = true) : ds.mapM t.answer = .ok ds := by
  induction ds with
  | nil => rfl
  | cons d ds ih =>
    obtain ⟨hfirst, hrest⟩ := List.forall_mem_cons.mp hk
    rw [List.mapM_cons, answer_of_knows hfirst, ih hrest]
    rfl

/-- The first type that is not known is the fault. -/
theorem answers_of_first {t : ClassTable} {before after : List Descriptor} {d : Descriptor}
    (hbefore : ∀ e ∈ before, t.knows e = true) (hd : t.knows d = false) :
    (before ++ d :: after).mapM t.answer = .error (.unknownType d.name) := by
  rw [List.mapM_append, answers_of_knows hbefore, List.mapM_cons, answer_of_not_knows hd]
  rfl

/-- The types of a list of names are found one by one. -/
theorem resolveNames_names {t : ClassTable} {ds : List Descriptor} (h : ∀ d ∈ ds, d.IsNamed)
    (hk : ∀ d ∈ ds, t.knows d = true) :
    (ds.map Descriptor.name).mapM t.typeSystem.resolveName = .ok ds := by
  rw [resolveNames_eq_answers fun d hd => ⟨h d hd, not_void_of_knows (hk d hd)⟩,
    answers_of_knows hk]

end ClassTable

end JvmSignature
