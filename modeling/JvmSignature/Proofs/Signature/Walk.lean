import JvmSignature.Proofs.Signature.Alignment

/-!
# Matching one argument at a time

Matching can be done in one walk over parameters and arguments, both from their ends, because only
the last parameter may have more or fewer arguments than one. A fixed parameter has to take the
argument at hand. The last parameter of a varargs method takes it as it is, or else absorbs
arguments as long as enough are left for the fixed parameters. The walk never comes back to an
argument.

`Walk.Accepts` says of each place of a walk what it has still to find. No step changes that
(`Walk.accepts_iff_of_go`), so the walk answers what matching answers (`Walk.run_start`).
-/

namespace JvmSignature

/-- Where a walk stands. The lists are back to front, so their heads come next. -/
inductive Walk where
  /-- At the fixed parameters. -/
  | atFixed (declared actuals : List Descriptor)
  /-- At the last parameter of a varargs method, which may have absorbed arguments. -/
  | atLast (last : Descriptor) (fixed actuals : List Descriptor) (hasAbsorbed : Bool)

namespace Walk

/-- What a step of a walk does: it ends with an answer, or it goes on. -/
inductive Move where
  | stop (answer : Bool)
  | go (next : Walk)

variable {ts : TypeSystem} {mode : MatchMode} {w next : Walk} {answer : Bool}

/-- The start of a walk. A method without parameters has none for varargs. -/
def start (isVarargs : Bool) (declared actuals : List Descriptor) : Walk :=
  match isVarargs, declared.reverse with
  | true, last :: fixed => atLast last fixed actuals.reverse false
  | _, declared => atFixed declared actuals.reverse

/-- One step of a walk. -/
def step (ts : TypeSystem) (mode : MatchMode) : Walk → Move
  | atFixed declared [] => .stop declared.isEmpty
  | atFixed [] (_ :: _) => .stop false
  | atFixed (d :: ds) (a :: as) =>
    if ts.accepts mode d a then .go (atFixed ds as) else .stop false
  -- Without an argument for it the last parameter may be left over, but no other.
  | atLast _ fixed [] _ => .stop fixed.isEmpty
  | atLast last fixed (a :: as) hasAbsorbed =>
    if !hasAbsorbed && ts.accepts mode last a then .go (atFixed fixed as)
    else if fixed.length < (a :: as).length && ts.acceptsComponent mode last a then
      .go (atLast last fixed as true)
    else .go (atFixed fixed (a :: as))

/-- The parameters and arguments that are left. -/
def size : Walk → Nat
  | atFixed declared actuals => declared.length + actuals.length
  | atLast _ fixed actuals _ => fixed.length + 1 + actuals.length

theorem size_lt_of_step (h : w.step ts mode = .go next) : next.size < w.size := by
  unfold step at h
  repeat' split at h
  all_goals cases h
  -- Every step that goes on is done with a parameter or with an argument.
  all_goals
    simp only [size, List.length_cons]
    omega

/-- The answer of a walk. -/
def run (ts : TypeSystem) (mode : MatchMode) (w : Walk) : Bool :=
  match _h : w.step ts mode with
  | .stop answer => answer
  | .go next => next.run ts mode
termination_by w.size
decreasing_by exact size_lt_of_step _h

/-! ## The invariant -/

/-- What a walk has still to find: an alignment of what is left. The last parameter of a varargs
method takes no argument as it is once it has absorbed one, and absorbs none that it so takes. -/
def Accepts (ts : TypeSystem) (mode : MatchMode) : Walk → Prop
  | atFixed declared actuals => ts.TakesEach mode declared.reverse actuals.reverse
  | atLast last fixed actuals hasAbsorbed =>
    let declared := fixed.reverse ++ [last]
    (hasAbsorbed = false ∧ ts.TakesEach mode declared actuals.reverse) ∨
      ts.TakesRest mode declared actuals.reverse ∧
        (hasAbsorbed = true ∨ ¬ ts.TakesLast mode declared actuals.reverse)

/-- The last argument is absorbed where enough are left for the fixed parameters, or else it is the
argument of a fixed parameter. -/
theorem takesRest_concat_concat_iff {fixed before : List Descriptor} {last actual : Descriptor} :
    ts.TakesRest mode (fixed ++ [last]) (before ++ [actual]) ↔
      (fixed.length < (before ++ [actual]).length ∧ ts.acceptsComponent mode last actual = true ∧
        ts.TakesRest mode (fixed ++ [last]) before) ∨
      ts.TakesEach mode fixed (before ++ [actual]) := by
  simp only [TypeSystem.takesRest_concat_iff]
  constructor
  · rintro ⟨firsts, rest, he, heach, hrest⟩
    rcases rest.eq_nil_or_concat with rfl | ⟨more, a, rfl⟩
    · rw [List.append_nil] at he
      exact Or.inr (he ▸ heach)
    · rw [List.concat_eq_append, ← List.append_assoc] at he
      obtain ⟨rfl, ha⟩ := List.append_inj' he rfl
      obtain rfl := (List.cons.inj ha).1
      simp only [List.concat_eq_append, List.forall_mem_append, List.forall_mem_singleton] at hrest
      refine Or.inl ⟨?_, hrest.2, firsts, more, rfl, heach, hrest.1⟩
      simp only [heach.length_eq, List.length_append, List.length_singleton]
      omega
  · rintro (⟨-, hactual, firsts, rest, rfl, heach, hrest⟩ | heach)
    · exact ⟨firsts, rest ++ [actual], by rw [List.append_assoc], heach,
        List.forall_mem_append.mpr ⟨hrest, List.forall_mem_singleton.mpr hactual⟩⟩
    · exact ⟨before ++ [actual], [], by rw [List.append_nil], heach, nofun⟩

/-- **A walk that ends answers whether there is nothing left to find.** -/
theorem eq_true_iff_of_stop (h : w.step ts mode = .stop answer) :
    answer = true ↔ w.Accepts ts mode := by
  cases w with
  | atFixed declared actuals =>
    rw [Accepts, TypeSystem.takesEach_iff_forall₂, List.forall₂_reverse_iff]
    cases actuals with
    | nil =>
      cases h
      rw [List.isEmpty_iff, List.forall₂_nil_right_iff]
    | cons a as =>
      cases declared with
      | nil =>
        cases h
        simp
      | cons d ds =>
        simp only [step] at h
        split at h
        · cases h
        · next hd =>
          cases h
          simp [hd]
  | atLast last fixed actuals hasAbsorbed =>
    cases actuals with
    | nil =>
      cases h
      simp [Accepts, TypeSystem.not_takesEach_concat_nil, TypeSystem.takesRest_concat_nil_iff,
        TypeSystem.not_takesLast_nil]
    | cons a as =>
      simp only [step] at h
      split at h
      · cases h
      · split at h <;> cases h

/-- The last parameter takes the argument at hand as it is, or it does not and absorbs it, or it
leaves it to the fixed parameters. -/
theorem accepts_atLast_cons_iff {last a : Descriptor} {fixed as : List Descriptor}
    {hasAbsorbed : Bool} :
    (atLast last fixed (a :: as) hasAbsorbed).Accepts ts mode ↔
      (hasAbsorbed = false ∧ ts.accepts mode last a = true) ∧
          ts.TakesEach mode fixed.reverse as.reverse ∨
        (hasAbsorbed = true ∨ ts.accepts mode last a = false) ∧
          ((fixed.length < (a :: as).length ∧ ts.acceptsComponent mode last a = true) ∧
              ts.TakesRest mode (fixed.reverse ++ [last]) as.reverse ∨
            ts.TakesEach mode fixed.reverse (a :: as).reverse) := by
  simp only [Accepts, List.reverse_cons, TypeSystem.takesEach_concat_iff,
    takesRest_concat_concat_iff, TypeSystem.takesLast_concat_iff, List.length_reverse,
    List.length_append, List.length_cons, List.length_nil, Bool.not_eq_true]
  tauto

/-- **No step changes whether what is left can be aligned.** -/
theorem accepts_iff_of_go (h : w.step ts mode = .go next) :
    next.Accepts ts mode ↔ w.Accepts ts mode := by
  cases w with
  | atFixed declared actuals =>
    cases actuals with
    | nil => cases h
    | cons a as =>
      cases declared with
      | nil => cases h
      | cons d ds =>
        simp only [step] at h
        split at h
        · next hd =>
          cases h
          simp [Accepts, TypeSystem.takesEach_concat_iff, hd]
        · cases h
  | atLast last fixed actuals hasAbsorbed =>
    cases actuals with
    | nil => cases h
    | cons a as =>
      rw [accepts_atLast_cons_iff]
      simp only [step] at h
      split at h
      · next htaken =>
        cases h
        simp only [Bool.and_eq_true, Bool.not_eq_true'] at htaken
        simp [Accepts, htaken]
      · next hnot =>
        have hfree : hasAbsorbed = true ∨ ts.accepts mode last a = false := by
          cases hasAbsorbed <;> simp_all
        have hwhole : ¬ (hasAbsorbed = false ∧ ts.accepts mode last a = true) := by
          rcases hfree with hb | hb <;> simp [hb]
        split at h
        · next habsorbs =>
          cases h
          rw [Bool.and_eq_true, decide_eq_true_eq] at habsorbs
          -- Fewer fixed parameters than arguments do not take them all.
          have hmany : ¬ ts.TakesEach mode fixed.reverse (a :: as).reverse := fun he => by
            have hlength := he.length_eq
            rw [List.length_reverse, List.length_reverse] at hlength
            omega
          simp only [hwhole, hfree, habsorbs, hmany, false_and, true_and, false_or, or_false]
          simp [Accepts]
        · next hleaves =>
          cases h
          rw [Bool.and_eq_true, decide_eq_true_eq] at hleaves
          simp only [hwhole, hfree, hleaves, false_and, true_and, false_or]
          exact Iff.rfl

/-- A walk answers whether what it has left can be aligned. -/
theorem run_eq_true_iff (w : Walk) : w.run ts mode = true ↔ w.Accepts ts mode := by
  fun_induction run ts mode w with
  | case1 w answer h => exact eq_true_iff_of_stop h
  | case2 w next h ih => rw [ih, accepts_iff_of_go h]

/-- **The walk over parameters and arguments answers what matching answers.** -/
theorem run_start (ts : TypeSystem) (mode : MatchMode) (isVarargs : Bool)
    (declared actuals : List Descriptor) :
    (start isVarargs declared actuals).run ts mode =
      ts.matchesParams isVarargs declared actuals mode := by
  rw [Bool.eq_iff_iff, run_eq_true_iff, TypeSystem.matchesParams_iff]
  rcases declared.eq_nil_or_concat with rfl | ⟨fixed, last, rfl⟩
  · cases isVarargs <;> simp [start, Accepts, TypeSystem.not_takesRest_nil]
  · cases isVarargs <;> simp [start, Accepts]

end Walk

end JvmSignature
