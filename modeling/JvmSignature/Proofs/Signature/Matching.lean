import JvmSignature.Signature.Matching

/-!
# What matching accepts

A list of parameters takes equal types, and a varargs method takes more: the last parameter may
*absorb* the arguments behind the fixed parameters, none or many, when each of them has the type of
its components. Exact matching is no exception (`matchesParams_exact_iff`), so it does not mean that
the types are equal.
-/

namespace JvmSignature.TypeSystem

variable {ts : TypeSystem} {declared actuals : List Descriptor}

/--
Whether the last of the declared parameters absorbs what is behind the fixed ones. It absorbs
nothing where the last argument is its own type: that one is taken as it is.
-/
def Absorbs (ts : TypeSystem) (declared actuals : List Descriptor) : Prop :=
  ∃ fixed last rest, declared = fixed ++ [last] ∧ actuals = fixed ++ rest ∧
    (∀ actual ∈ rest, ts.component? last = some actual) ∧ actuals.getLast? ≠ some last

/-- Parameters that absorb are never equal to the arguments. -/
theorem Absorbs.ne (h : ts.Absorbs declared actuals) : declared ≠ actuals := by
  obtain ⟨fixed, last, rest, rfl, -, -, hlast⟩ := h
  rintro rfl
  exact hlast List.getLast?_concat

theorem absorbs_iff {fixed : List Descriptor} {last : Descriptor} :
    ts.Absorbs (fixed ++ [last]) actuals ↔
      (∃ rest, actuals = fixed ++ rest ∧ ∀ actual ∈ rest, ts.component? last = some actual) ∧
        actuals.getLast? ≠ some last := by
  constructor
  · rintro ⟨fixed', last', rest, he, hrest, hall, hlast⟩
    obtain ⟨rfl, hl⟩ := List.append_inj' he rfl
    obtain rfl := (List.cons.inj hl).1
    exact ⟨⟨rest, hrest, hall⟩, hlast⟩
  · rintro ⟨⟨rest, hrest, hall⟩, hlast⟩
    exact ⟨fixed, last, rest, rfl, hrest, hall, hlast⟩

/-! ## The two ways of matching -/

theorem matchesParams_fixed (ts : TypeSystem) (mode : MatchMode) :
    ts.matchesParams false declared actuals mode = ts.acceptsAll mode declared actuals := rfl

/-- A method without parameters has none for varargs. -/
theorem matchesParams_nil (ts : TypeSystem) (mode : MatchMode) :
    ts.matchesParams true [] actuals mode = ts.acceptsAll mode [] actuals := rfl

theorem matchesParams_varargs (ts : TypeSystem) (mode : MatchMode) (fixed : List Descriptor)
    (last : Descriptor) :
    ts.matchesParams true (fixed ++ [last]) actuals mode =
      ts.acceptsVarargs mode fixed last actuals := by
  simp only [matchesParams, List.getLast?_concat, List.dropLast_concat]

/-! ## Exact matching -/

theorem acceptsAll_exact_iff : ts.acceptsAll .exact declared actuals = true ↔ declared = actuals := by
  induction declared generalizing actuals with
  | nil =>
    cases actuals with
    | nil => exact ⟨fun _ => rfl, fun _ => rfl⟩
    | cons a as => exact ⟨nofun, nofun⟩
  | cons d ds ih =>
    cases actuals with
    | nil => exact ⟨nofun, nofun⟩
    | cons a as =>
      rw [acceptsAll, Bool.and_eq_true, ih, accepts, decide_eq_true_eq, List.cons.injEq]

theorem acceptsComponent_exact_iff {last actual : Descriptor} :
    ts.acceptsComponent .exact last actual = true ↔ ts.component? last = some actual := by
  rw [acceptsComponent, Option.any_eq_true]
  constructor
  · rintro ⟨component, hc, he⟩
    rw [accepts, decide_eq_true_eq] at he
    rw [hc, he]
  · intro hc
    exact ⟨actual, hc, decide_eq_true rfl⟩

/-- The fixed parameters take the first arguments, and the components of the last one the others. -/
theorem acceptsRest_exact_iff {fixed : List Descriptor} {last : Descriptor} :
    (ts.acceptsAll .exact fixed (actuals.take fixed.length) &&
        (actuals.drop fixed.length).all (ts.acceptsComponent .exact last)) = true ↔
      ∃ rest, actuals = fixed ++ rest ∧ ∀ actual ∈ rest, ts.component? last = some actual := by
  simp only [Bool.and_eq_true, acceptsAll_exact_iff, List.all_eq_true, acceptsComponent_exact_iff]
  constructor
  · rintro ⟨hfixed, hrest⟩
    refine ⟨actuals.drop fixed.length, ?_, hrest⟩
    have htake := List.take_append_drop fixed.length actuals
    rw [← hfixed] at htake
    exact htake.symm
  · rintro ⟨rest, rfl, hrest⟩
    rw [List.take_left, List.drop_left]
    exact ⟨rfl, hrest⟩

theorem acceptsVarargs_exact_iff {fixed : List Descriptor} {last : Descriptor} :
    ts.acceptsVarargs .exact fixed last actuals = true ↔
      fixed ++ [last] = actuals ∨ ts.Absorbs (fixed ++ [last]) actuals := by
  rw [absorbs_iff]
  rcases actuals.eq_nil_or_concat with rfl | ⟨before, actual, rfl⟩
  · -- Without arguments only the last parameter may be left over.
    rw [acceptsVarargs, List.getLast?_nil]
    simp only [List.isEmpty_iff]
    constructor
    · rintro rfl
      exact Or.inr ⟨⟨[], rfl, nofun⟩, nofun⟩
    · rintro (he | ⟨⟨rest, he, -⟩, -⟩)
      · exact absurd he (by simp)
      · exact (List.append_eq_nil_iff.mp he.symm).1
  · rw [List.concat_eq_append, acceptsVarargs, List.getLast?_concat]
    simp only [accepts, decide_eq_true_eq]
    by_cases hl : last = actual
    · -- The last argument is taken as it is, and every other parameter takes its own.
      subst hl
      rw [if_pos rfl, List.dropLast_concat, acceptsAll_exact_iff]
      constructor
      · rintro rfl
        exact Or.inl rfl
      · rintro (he | ⟨-, hne⟩)
        · exact (List.append_inj' he rfl).1
        · exact absurd rfl hne
    · rw [if_neg hl, acceptsRest_exact_iff]
      have hne : some actual ≠ some last := fun he => hl (Option.some.inj he).symm
      have hdiff : fixed ++ [last] ≠ before ++ [actual] := fun he =>
        hl (List.cons.inj (List.append_inj' he rfl).2).1
      simp only [hne, hdiff, ne_eq, not_false_eq_true, and_true, false_or]

/-- **Exact matching takes equal types, and what a varargs parameter absorbs.** -/
theorem matchesParams_exact_iff {isVarargs : Bool} :
    ts.matchesParams isVarargs declared actuals .exact = true ↔
      declared = actuals ∨ isVarargs = true ∧ ts.Absorbs declared actuals := by
  cases isVarargs with
  | false =>
    rw [matchesParams_fixed, acceptsAll_exact_iff]
    simp
  | true =>
    rcases declared.eq_nil_or_concat with rfl | ⟨fixed, last, rfl⟩
    · have hnone : ¬ ts.Absorbs [] actuals := by
        rintro ⟨fixed, last, rest, he, -⟩
        exact absurd he.symm (by simp)
      rw [matchesParams_nil, acceptsAll_exact_iff]
      simp [hnone]
    · rw [List.concat_eq_append, matchesParams_varargs, acceptsVarargs_exact_iff]
      simp only [true_and]

end JvmSignature.TypeSystem
