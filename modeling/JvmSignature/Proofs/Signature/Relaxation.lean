import JvmSignature.Proofs.Signature.Alignment

/-!
# From equal types to assignable types

Every type is assignable to itself, so an alignment by equal types is one by assignable types as
well (`takesRest_of_absorbs`). A match may be lost all the same: the last parameter of a varargs
method has the last argument whenever it takes it as it is, and it takes more where types need not
be equal. What it takes then is the argument of the fixed parameter before it, and no other match is
lost (`lost_by_relaxing_iff`).
-/

namespace JvmSignature.ClassTable

variable {t : ClassTable} {mode : MatchMode} {declared actuals : List Descriptor}

/-! ## Single types -/

theorem isAssignable_refl (t : ClassTable) (d : Descriptor) : t.isAssignable d d = true :=
  assigns_iff.mpr (Or.inl ⟨rfl, .refl _ _⟩)

theorem accepts_self (t : ClassTable) (mode : MatchMode) (d : Descriptor) :
    t.typeSystem.accepts mode d d = true := by
  cases mode with
  | exact => exact decide_eq_true rfl
  | assignable => exact t.isAssignable_refl d

/-- No component is assignable to the array that it is a component of. -/
theorem isAssignable_component_eq_false {d component : Descriptor}
    (h : t.typeSystem.component? d = some component) : t.isAssignable component d = false := by
  obtain ⟨e, n⟩ := d
  cases n with
  | zero => cases h
  | succ n =>
    cases h
    rw [isAssignable, ← Bool.not_eq_true, assigns_iff]
    rintro (⟨hn, -⟩ | ⟨hn, -⟩)
    · exact absurd hn (Nat.ne_of_lt (Nat.lt_succ_self n))
    · exact absurd hn (Nat.not_lt_of_le (Nat.le_succ n))

/-! ## Alignments -/

theorem takesEach_self (t : ClassTable) (mode : MatchMode) (ds : List Descriptor) :
    t.typeSystem.TakesEach mode ds ds :=
  ⟨rfl, fun i _ => t.accepts_self mode ds[i]⟩

/-- What the last parameter absorbs where types are equal, it can have in every mode. -/
theorem takesRest_of_absorbs (h : t.typeSystem.Absorbs declared actuals) :
    t.typeSystem.TakesRest mode declared actuals := by
  obtain ⟨fixed, last, rest, rfl, rfl, hrest, -⟩ := h
  refine TypeSystem.takesRest_concat_iff.mpr ⟨fixed, rest, rfl, t.takesEach_self mode fixed, ?_⟩
  intro a ha
  rw [TypeSystem.acceptsComponent, hrest a ha]
  exact t.accepts_self mode a

/-- Where the last parameter absorbs and may as well take the last argument as it is, it absorbs
nothing, and that argument is the one of the fixed parameter before it. -/
theorem exists_of_absorbs_of_takesLast (h : t.typeSystem.Absorbs declared actuals)
    (hlast : t.typeSystem.TakesLast .assignable declared actuals) :
    ∃ before a last, declared = before ++ [a, last] ∧ actuals = before ++ [a] ∧ a ≠ last ∧
      t.isAssignable a last = true := by
  obtain ⟨fixed, last, rest, rfl, rfl, hrest, hne⟩ := h
  obtain ⟨d, hd, a, ha, htakes⟩ := hlast
  obtain rfl : last = d := by simpa using hd
  have htakes : t.isAssignable a last = true := htakes
  rcases rest.eq_nil_or_concat with rfl | ⟨rest, x, rfl⟩
  · rw [List.append_nil, Option.mem_def] at ha
    obtain ⟨before, rfl⟩ := List.getLast?_eq_some_iff.mp ha
    refine ⟨before, a, last, by simp, by simp, ?_, htakes⟩
    rintro rfl
    exact hne (by simp)
  · -- The last argument is a component, and the array does not take it as it is.
    obtain rfl : x = a := by simpa using ha
    rw [isAssignable_component_eq_false (hrest x (by simp))] at htakes
    cases htakes

/--
**Which matches are lost where types need not be equal.** What matches by equal types matches by
assignable types as well, except in one case: the parameters of a varargs method are the arguments
and one more, which the last argument is assignable to without being of its type. Then the last
parameter takes that argument, and the fixed parameter before it has none.
-/
theorem lost_by_relaxing_iff (t : ClassTable) (isVarargs : Bool)
    (declared actuals : List Descriptor) :
    (t.typeSystem.matchesParams isVarargs declared actuals .exact = true ∧
      t.typeSystem.matchesParams isVarargs declared actuals .assignable = false) ↔
    isVarargs = true ∧ ∃ before a last, declared = before ++ [a, last] ∧ actuals = before ++ [a] ∧
      a ≠ last ∧ t.isAssignable a last = true := by
  constructor
  · rintro ⟨hexact, hlost⟩
    rcases TypeSystem.matchesParams_exact_iff.mp hexact with rfl | ⟨hv, habsorbs⟩
    · rw [TypeSystem.matchesParams_iff.mpr (Or.inl (t.takesEach_self _ _))] at hlost
      cases hlost
    · have hlast : t.typeSystem.TakesLast .assignable declared actuals := by
        by_contra hnot
        have hrest : t.typeSystem.TakesRest .assignable declared actuals :=
          takesRest_of_absorbs habsorbs
        rw [TypeSystem.matchesParams_iff.mpr (Or.inr ⟨hv, hrest, hnot⟩)] at hlost
        cases hlost
      exact ⟨hv, exists_of_absorbs_of_takesLast habsorbs hlast⟩
  · rintro ⟨hv, before, a, last, rfl, rfl, hne, ha⟩
    constructor
    · refine TypeSystem.matchesParams_exact_iff.mpr (Or.inr ⟨hv, ?_⟩)
      exact ⟨before ++ [a], last, [], by simp, by simp, nofun, by simpa using hne⟩
    · rw [← Bool.not_eq_true, TypeSystem.matchesParams_iff]
      rintro (heach | ⟨-, -, hnot⟩)
      · exact absurd heach.length_eq (by simp)
      · exact hnot ⟨last, by simp, a, by simp, ha⟩

/-- An array of strings is the argument of the fixed parameter, but an array of objects takes it. -/
theorem lost_by_relaxing_iff_arrays :
    let t := ClassTable.platform
    let strings := (Descriptor.reference "java.lang.String".toList).array 1
    let objects := (Descriptor.reference "java.lang.Object".toList).array 1
    t.typeSystem.matchesParams true [strings, objects] [strings] .exact = true ∧
      t.typeSystem.matchesParams true [strings, objects] [strings] .assignable = false := by
  intro t strings objects
  exact (lost_by_relaxing_iff t true _ _).mpr
    ⟨rfl, [], strings, objects, rfl, rfl, by decide, by decide⟩

end JvmSignature.ClassTable
