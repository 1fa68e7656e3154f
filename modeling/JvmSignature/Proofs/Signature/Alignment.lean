import JvmSignature.Proofs.ClassTable.Assignability
import JvmSignature.Proofs.Signature.Matching
import Mathlib.Data.List.Forall2

/-!
# Alignments

An *alignment* divides arguments among parameters, in their order: each parameter has one argument
that it takes, and the last parameter of a varargs method may instead have any number of arguments,
none included, that are its components. There are only two ways to do so, `TakesEach` and `TakesRest`.

What matches has an alignment (`alignment_of_matchesParams`). The converse does not hold: matching
gives the last argument to the last parameter whenever that takes it as it is, and does not come
back to the alignments in which it is a component, or the argument of a fixed parameter.
`matchesParams_iff` says that nothing else is lost, and `matchesParams_iff_of_le` where nothing is.
-/

namespace JvmSignature

namespace TypeSystem

variable {ts : TypeSystem} {mode : MatchMode} {isVarargs : Bool} {declared actuals : List Descriptor}

/-! ## The two ways to align -/

/-- Whether each parameter takes the argument in its place, and no argument is left. -/
structure TakesEach (ts : TypeSystem) (mode : MatchMode) (declared actuals : List Descriptor) :
    Prop where
  length_eq : declared.length = actuals.length
  takes : ∀ i (_ : i < declared.length), ts.accepts mode declared[i] actuals[i] = true

/-- Whether the parameters before the last one take the arguments in their places, and the last one
takes all arguments behind these as its components. -/
structure TakesRest (ts : TypeSystem) (mode : MatchMode) (declared actuals : List Descriptor) :
    Prop where
  pos : 0 < declared.length
  enough : declared.length - 1 ≤ actuals.length
  fixed : ∀ i (_ : i < declared.length - 1), ts.accepts mode declared[i] actuals[i] = true
  rest : ∀ j (_ : declared.length - 1 ≤ j) (_ : j < actuals.length),
    ts.acceptsComponent mode declared[declared.length - 1] actuals[j] = true

/-- Whether the last parameter takes the last argument as it is. -/
def TakesLast (ts : TypeSystem) (mode : MatchMode) (declared actuals : List Descriptor) : Prop :=
  ∃ d ∈ declared.getLast?, ∃ a ∈ actuals.getLast?, ts.accepts mode d a = true

/-- The arguments of each parameter: one that it takes, or, where it is the last parameter of a
varargs method, any number of its components. -/
inductive IsAlignment (ts : TypeSystem) (mode : MatchMode) (isVarargs : Bool) :
    List Descriptor → List (List Descriptor) → Prop
  | nil : IsAlignment ts mode isVarargs [] []
  | take {d a : Descriptor} {ds : List Descriptor} {groups : List (List Descriptor)}
      (h : ts.accepts mode d a = true) (rest : IsAlignment ts mode isVarargs ds groups) :
      IsAlignment ts mode isVarargs (d :: ds) ([a] :: groups)
  | absorb {d : Descriptor} {group : List Descriptor} (hv : isVarargs = true)
      (h : ∀ a ∈ group, ts.acceptsComponent mode d a = true) :
      IsAlignment ts mode isVarargs [d] [group]

/-! ## Both ways on lists -/

theorem takesEach_iff_forall₂ :
    ts.TakesEach mode declared actuals ↔
      List.Forall₂ (fun d a => ts.accepts mode d a = true) declared actuals := by
  rw [List.forall₂_iff_get]
  constructor
  · intro h
    exact ⟨h.length_eq, fun i hd _ => h.takes i hd⟩
  · rintro ⟨hlength, htakes⟩
    exact ⟨hlength, fun i hd => htakes i hd (hlength ▸ hd)⟩

theorem takesRest_concat_iff {fixed : List Descriptor} {last : Descriptor} :
    ts.TakesRest mode (fixed ++ [last]) actuals ↔
      ∃ firsts rest, actuals = firsts ++ rest ∧ ts.TakesEach mode fixed firsts ∧
        ∀ a ∈ rest, ts.acceptsComponent mode last a = true := by
  have hn : (fixed ++ [last]).length - 1 = fixed.length := by simp
  constructor
  · intro h
    have henough : fixed.length ≤ actuals.length := hn ▸ h.enough
    refine ⟨actuals.take fixed.length, actuals.drop fixed.length,
      (List.take_append_drop _ _).symm, ⟨?_, fun i hi => ?_⟩, fun a ha => ?_⟩
    · rw [List.length_take, Nat.min_eq_left henough]
    · have hi' := h.fixed i (by omega)
      rw [List.getElem_append_left hi] at hi'
      rwa [List.getElem_take]
    · obtain ⟨j, hj, rfl⟩ := List.mem_drop_iff_getElem.mp ha
      have hrest := h.rest (fixed.length + j) (by omega) (by omega)
      simpa using hrest
  · rintro ⟨firsts, rest, rfl, heach, hrest⟩
    have hlength := heach.length_eq
    refine ⟨by simp, by simp [hlength], fun i hi => ?_, fun j hj hj' => ?_⟩
    · rw [hn] at hi
      rw [List.getElem_append_left hi, List.getElem_append_left (hlength ▸ hi)]
      exact heach.takes i hi
    · rw [hn, hlength] at hj
      rw [List.getElem_append_right hj]
      simpa using hrest _ (List.getElem_mem _)

/-- A single parameter takes its components. -/
theorem takesRest_singleton {last : Descriptor}
    (h : ∀ a ∈ actuals, ts.acceptsComponent mode last a = true) :
    ts.TakesRest mode [last] actuals := by
  rw [← List.nil_append [last], takesRest_concat_iff]
  exact ⟨[], actuals, rfl, takesEach_iff_forall₂.mpr .nil, h⟩

/-- Where each parameter can have an argument, the last argument is a component of the last
parameter. -/
theorem TakesRest.acceptsComponent (h : ts.TakesRest mode declared actuals)
    (hle : declared.length ≤ actuals.length) {d a : Descriptor} (hd : d ∈ declared.getLast?)
    (ha : a ∈ actuals.getLast?) : ts.acceptsComponent mode d a = true := by
  have hpos := h.pos
  have hlast := h.rest (actuals.length - 1) (by omega) (by omega)
  rw [List.getLast?_eq_getElem?, Option.mem_def] at hd ha
  obtain ⟨_, rfl⟩ := List.getElem?_eq_some_iff.mp hd
  obtain ⟨_, rfl⟩ := List.getElem?_eq_some_iff.mp ha
  exact hlast

theorem not_takesRest_nil : ¬ ts.TakesRest mode [] actuals := fun h => absurd h.pos (by simp)

theorem takesLast_concat_iff {fixed before : List Descriptor} {last actual : Descriptor} :
    ts.TakesLast mode (fixed ++ [last]) (before ++ [actual]) ↔ ts.accepts mode last actual = true := by
  simp [TakesLast]

theorem not_takesLast_nil : ¬ ts.TakesLast mode declared [] := by
  rintro ⟨d, -, a, ha, -⟩
  cases ha

/-! ## Alignments as groups of arguments -/

theorem TakesEach.cons {d a : Descriptor} (htakes : ts.accepts mode d a = true)
    (h : ts.TakesEach mode declared actuals) : ts.TakesEach mode (d :: declared) (a :: actuals) := by
  rw [takesEach_iff_forall₂] at h ⊢
  exact .cons htakes h

theorem TakesRest.cons {d a : Descriptor} (htakes : ts.accepts mode d a = true)
    (h : ts.TakesRest mode declared actuals) : ts.TakesRest mode (d :: declared) (a :: actuals) := by
  rcases declared.eq_nil_or_concat with rfl | ⟨fixed, last, rfl⟩
  · exact absurd h not_takesRest_nil
  · rw [List.concat_eq_append, takesRest_concat_iff] at h
    obtain ⟨firsts, rest, rfl, heach, hrest⟩ := h
    rw [List.concat_eq_append, ← List.cons_append, takesRest_concat_iff]
    exact ⟨a :: firsts, rest, rfl, heach.cons htakes, hrest⟩

theorem TakesEach.exists_alignment (h : ts.TakesEach mode declared actuals) :
    ∃ groups, groups.flatten = actuals ∧ ts.IsAlignment mode isVarargs declared groups := by
  rw [takesEach_iff_forall₂] at h
  induction h with
  | nil => exact ⟨[], rfl, .nil⟩
  | cons htakes _ ih =>
    obtain ⟨groups, rfl, hgroups⟩ := ih
    exact ⟨_ :: groups, rfl, .take htakes hgroups⟩

theorem TakesRest.exists_alignment (h : ts.TakesRest mode declared actuals)
    (hv : isVarargs = true) :
    ∃ groups, groups.flatten = actuals ∧ ts.IsAlignment mode isVarargs declared groups := by
  rcases declared.eq_nil_or_concat with rfl | ⟨fixed, last, rfl⟩
  · exact absurd h not_takesRest_nil
  · rw [List.concat_eq_append, takesRest_concat_iff] at *
    obtain ⟨firsts, rest, rfl, heach, hrest⟩ := h
    rw [takesEach_iff_forall₂] at heach
    induction heach with
    | nil => exact ⟨[rest], by simp, .absorb hv hrest⟩
    | cons htakes _ ih =>
      obtain ⟨groups, hflat, hgroups⟩ := ih
      exact ⟨_ :: groups, by rw [List.flatten_cons, hflat]; rfl, .take htakes hgroups⟩

/-- **There are no other alignments**: the arguments are in place, or the last parameter has all
behind the fixed ones. -/
theorem exists_alignment_iff :
    (∃ groups, groups.flatten = actuals ∧ ts.IsAlignment mode isVarargs declared groups) ↔
      ts.TakesEach mode declared actuals ∨
        isVarargs = true ∧ ts.TakesRest mode declared actuals := by
  constructor
  · rintro ⟨groups, rfl, h⟩
    induction h with
    | nil => exact Or.inl (takesEach_iff_forall₂.mpr .nil)
    | take htakes _ ih =>
      rcases ih with heach | ⟨hv, hrest⟩
      · exact Or.inl (heach.cons htakes)
      · exact Or.inr ⟨hv, hrest.cons htakes⟩
    | absorb hv h =>
      refine Or.inr ⟨hv, ?_⟩
      rw [List.flatten_singleton]
      exact takesRest_singleton h
  · rintro (h | ⟨hv, h⟩)
    · exact h.exists_alignment
    · exact h.exists_alignment hv

/-! ## What matches -/

theorem acceptsAll_iff_takesEach :
    ts.acceptsAll mode declared actuals = true ↔ ts.TakesEach mode declared actuals := by
  rw [takesEach_iff_forall₂]
  induction declared generalizing actuals with
  | nil =>
    cases actuals with
    | nil => simp [acceptsAll]
    | cons a as => simp [acceptsAll]
  | cons d ds ih =>
    cases actuals with
    | nil => simp [acceptsAll]
    | cons a as => rw [acceptsAll, Bool.and_eq_true, ih, List.forall₂_cons]

theorem takesEach_concat_iff {fixed before : List Descriptor} {last actual : Descriptor} :
    ts.TakesEach mode (fixed ++ [last]) (before ++ [actual]) ↔
      ts.TakesEach mode fixed before ∧ ts.accepts mode last actual = true := by
  simp only [takesEach_iff_forall₂]
  rw [← List.forall₂_reverse_iff, List.reverse_concat, List.reverse_concat, List.forall₂_cons,
    List.forall₂_reverse_iff, and_comm]

/-- The fixed parameters take the first arguments, and the last one takes the others. -/
theorem takesRest_concat_iff_take {fixed : List Descriptor} {last : Descriptor} :
    ts.TakesRest mode (fixed ++ [last]) actuals ↔
      (ts.acceptsAll mode fixed (actuals.take fixed.length) &&
        (actuals.drop fixed.length).all (ts.acceptsComponent mode last)) = true := by
  rw [takesRest_concat_iff, Bool.and_eq_true, acceptsAll_iff_takesEach, List.all_eq_true]
  constructor
  · rintro ⟨firsts, rest, rfl, heach, hrest⟩
    rw [heach.length_eq, List.take_left, List.drop_left]
    exact ⟨heach, hrest⟩
  · rintro ⟨heach, hrest⟩
    exact ⟨_, _, (List.take_append_drop _ _).symm, heach, hrest⟩

theorem not_takesEach_concat_nil {fixed : List Descriptor} {last : Descriptor} :
    ¬ ts.TakesEach mode (fixed ++ [last]) [] := fun h => by
  simpa using h.length_eq

/-- Without arguments there is no parameter but the last one. -/
theorem takesRest_concat_nil_iff {fixed : List Descriptor} {last : Descriptor} :
    ts.TakesRest mode (fixed ++ [last]) [] ↔ fixed = [] := by
  rw [takesRest_concat_iff_take]
  cases fixed <;> simp [acceptsAll]

theorem acceptsVarargs_iff {fixed : List Descriptor} {last : Descriptor} :
    ts.acceptsVarargs mode fixed last actuals = true ↔
      ts.TakesEach mode (fixed ++ [last]) actuals ∨
        ts.TakesRest mode (fixed ++ [last]) actuals ∧
          ¬ ts.TakesLast mode (fixed ++ [last]) actuals := by
  rcases actuals.eq_nil_or_concat with rfl | ⟨before, actual, rfl⟩
  · -- Without arguments only the last parameter may be left over.
    simp only [acceptsVarargs, List.getLast?_nil, List.isEmpty_iff, takesRest_concat_nil_iff,
      not_takesEach_concat_nil, not_takesLast_nil, false_or, not_false_eq_true, and_true]
  · rw [List.concat_eq_append, acceptsVarargs, List.getLast?_concat, takesLast_concat_iff,
      takesEach_concat_iff, takesRest_concat_iff_take]
    by_cases hlast : ts.accepts mode last actual = true
    · simp [hlast, acceptsAll_iff_takesEach]
    · simp [hlast]

/-- **What matches**: arguments in place, and for varargs those of which the last parameter has all
behind the fixed ones, provided that it does not take the last argument as it is. -/
theorem matchesParams_iff :
    ts.matchesParams isVarargs declared actuals mode = true ↔
      ts.TakesEach mode declared actuals ∨
        isVarargs = true ∧ ts.TakesRest mode declared actuals ∧
          ¬ ts.TakesLast mode declared actuals := by
  cases isVarargs with
  | false => simp [matchesParams_fixed, acceptsAll_iff_takesEach]
  | true =>
    rcases declared.eq_nil_or_concat with rfl | ⟨fixed, last, rfl⟩
    · simp [matchesParams_nil, acceptsAll_iff_takesEach, not_takesRest_nil]
    · rw [List.concat_eq_append, matchesParams_varargs, acceptsVarargs_iff]
      simp

/--
**What matches has an alignment.** The arguments are in place, or the last parameter of a varargs
method has all behind the fixed ones: so they can be divided among the parameters, none left out and
none given to two. Without varargs, matching means nothing else than that they are in place.
-/
theorem alignment_of_matchesParams (ts : TypeSystem) (mode : MatchMode)
    (declared actuals : List Descriptor) :
    (∀ isVarargs, ts.matchesParams isVarargs declared actuals mode = true →
      (ts.TakesEach mode declared actuals ∨
        isVarargs = true ∧ ts.TakesRest mode declared actuals) ∧
      ∃ groups, groups.flatten = actuals ∧ ts.IsAlignment mode isVarargs declared groups) ∧
    (ts.matchesParams false declared actuals mode = true ↔
      ts.TakesEach mode declared actuals) := by
  constructor
  · intro isVarargs h
    have hways : ts.TakesEach mode declared actuals ∨
        isVarargs = true ∧ ts.TakesRest mode declared actuals := by
      rcases matchesParams_iff.mp h with heach | ⟨hv, hrest, -⟩
      · exact Or.inl heach
      · exact Or.inr ⟨hv, hrest⟩
    exact ⟨hways, exists_alignment_iff.mpr hways⟩
  · rw [matchesParams_fixed, acceptsAll_iff_takesEach]

/-- Two arguments of different types are both components of the last parameter. -/
theorem alignment_of_matchesParams_objects :
    let ts := ClassTable.platform.typeSystem
    let object := Descriptor.reference "java.lang.Object".toList
    let declared := [.primitive .int, object.array 1]
    let actuals := [.primitive .int, .reference "java.lang.Integer".toList,
      .reference "java.lang.String".toList]
    ts.matchesParams true declared actuals .assignable = true ∧
      ts.TakesRest .assignable declared actuals ∧
      ∃ groups, groups.flatten = actuals ∧ ts.IsAlignment .assignable true declared groups := by
  intro ts object declared actuals
  have hmatches : ts.matchesParams true declared actuals .assignable = true := by decide
  obtain ⟨hways, hgroups⟩ := (alignment_of_matchesParams ts .assignable declared actuals).1 _ hmatches
  have heach : ¬ ts.TakesEach .assignable declared actuals := fun h => absurd h.length_eq (by decide)
  exact ⟨hmatches, (hways.resolve_left heach).2, hgroups⟩

/--
**Which alignments are missed.** Where arguments have an alignment, they do not match exactly when
they are not in place and the last parameter takes the last argument as it is.
-/
theorem matchesParams_eq_false_iff
    (h : ts.TakesEach mode declared actuals ∨
      isVarargs = true ∧ ts.TakesRest mode declared actuals) :
    ts.matchesParams isVarargs declared actuals mode = false ↔
      ¬ ts.TakesEach mode declared actuals ∧ ts.TakesLast mode declared actuals := by
  rw [← Bool.not_eq_true, matchesParams_iff]
  constructor
  · intro hnot
    have heach : ¬ ts.TakesEach mode declared actuals := fun he => hnot (Or.inl he)
    obtain ⟨hv, hrest⟩ := h.resolve_left heach
    exact ⟨heach, by_contra fun hlast => hnot (Or.inr ⟨hv, hrest, hlast⟩)⟩
  · rintro ⟨heach, hlast⟩ (he | ⟨-, -, hnot⟩)
    · exact heach he
    · exact hnot hlast

/-- An array is missing for the fixed parameter because the last one has it, and an array is taken
for all arguments where it is but one of them. -/
theorem matchesParams_eq_false_iff_arrays :
    let ts := ClassTable.platform.typeSystem
    let strings := (Descriptor.reference "java.lang.String".toList).array 1
    let objects := (Descriptor.reference "java.lang.Object".toList).array 1
    (ts.TakesRest .exact [strings, strings] [strings] ∧
      ts.matchesParams true [strings, strings] [strings] .exact = false) ∧
    (ts.TakesRest .assignable [objects] [strings, strings] ∧
      ts.matchesParams true [objects] [strings, strings] .assignable = false) := by
  intro ts strings objects
  have hone : ts.TakesRest .exact [strings, strings] [strings] :=
    .cons (by decide) (takesRest_singleton nofun)
  have htwo : ts.TakesRest .assignable [objects] [strings, strings] :=
    takesRest_singleton (by decide)
  have hone' : ts.TakesLast .exact [strings, strings] [strings] :=
    ⟨strings, rfl, strings, rfl, by decide⟩
  have htwo' : ts.TakesLast .assignable [objects] [strings, strings] :=
    ⟨objects, rfl, strings, rfl, by decide⟩
  exact ⟨⟨hone, (matchesParams_eq_false_iff (Or.inr ⟨rfl, hone⟩)).mpr
      ⟨fun h => absurd h.length_eq (by decide), hone'⟩⟩,
    htwo, (matchesParams_eq_false_iff (Or.inr ⟨rfl, htwo⟩)).mpr
      ⟨fun h => absurd h.length_eq (by decide), htwo'⟩⟩

end TypeSystem

/-! ## Class tables -/

namespace ClassTable

variable {t : ClassTable} {mode : MatchMode} {isVarargs : Bool} {declared actuals : List Descriptor}

/-- What an array takes as it is, is no component of it, unless its elements are supertypes of
arrays. -/
theorem acceptsComponent_eq_false {d a : Descriptor}
    (h : mode = .exact ∨ ¬ d.element.IsArraySupertype)
    (ha : t.typeSystem.accepts mode d a = true) : t.typeSystem.acceptsComponent mode d a = false := by
  obtain ⟨e, n⟩ := d
  cases n with
  | zero => rfl
  | succ n =>
    have hcomponent : t.typeSystem.acceptsComponent mode ⟨e, n + 1⟩ a =
        t.typeSystem.accepts mode ⟨e, n⟩ a := rfl
    rw [hcomponent, ← Bool.not_eq_true]
    intro hc
    cases mode with
    | exact =>
      have h1 := of_decide_eq_true ha
      have h2 := of_decide_eq_true hc
      rw [← h1] at h2
      exact absurd (congrArg Descriptor.depth h2) (by simp)
    | assignable =>
      have hnot := h.resolve_left nofun
      rcases assigns_iff.mp ha with ⟨h1, -⟩ | ⟨-, hf⟩
      · rcases assigns_iff.mp hc with ⟨h2, -⟩ | ⟨-, hf⟩
        · exact absurd (h1.symm.trans h2) (Nat.succ_ne_self n)
        · exact hnot hf
      · exact hnot hf

/--
**Where no alignment is missed.** By the types of a class table, every alignment is found if there
are as many arguments as parameters or more, and if types have to be equal or the last parameter is
no array of a supertype of arrays.
-/
theorem matchesParams_iff_of_le (hle : declared.length ≤ actuals.length)
    (h : mode = .exact ∨ ∀ d ∈ declared.getLast?, ¬ d.element.IsArraySupertype) :
    t.typeSystem.matchesParams isVarargs declared actuals mode = true ↔
      t.typeSystem.TakesEach mode declared actuals ∨
        isVarargs = true ∧ t.typeSystem.TakesRest mode declared actuals := by
  rw [TypeSystem.matchesParams_iff]
  refine or_congr_right (and_congr_right fun _ => and_iff_left_of_imp fun hrest => ?_)
  rintro ⟨d, hd, a, ha, htakes⟩
  have hnone := acceptsComponent_eq_false (h.imp_right fun h => h d hd) htakes
  rw [hrest.acceptsComponent hle hd ha] at hnone
  cases hnone

end ClassTable

end JvmSignature
