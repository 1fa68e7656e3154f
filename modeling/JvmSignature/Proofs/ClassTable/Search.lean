import JvmSignature.Proofs.ClassTable.Reachability
import Mathlib.Data.List.Flatten
import Mathlib.Data.List.Perm.Basic

/-!
# The search upwards ends, in any order

A search for a supertype goes in rounds. Each round takes one of the names that wait: a name that was
taken up before is struck out, any other is taken up and leaves its supertypes waiting in its place.
Which name comes next is nowhere said here, and neither is where the supertypes are put. The answer
does not depend on it, nor does the end of the search (`isAssignable_iff_below`).

A search ends because every round strikes out one name, and a class brings its supertypes only once.
So the names that wait, together with the supertypes that classes not taken up yet would bring, become
fewer (`Round.cost_lt`). The answer is right because a path to the target passes a name that waits, from
the first round to the last (`Round.exists_below_iff`).
-/

namespace JvmSignature.ClassTable

open Relation (ReflTransGen)

/-! ## Rounds -/

/-- Where a search stands: the names that wait, and the names that were taken up. -/
structure Search where
  pending : List Text
  seen : List Text

/-- A search from a name, before its first round. -/
def Search.start (name : Text) : Search := ⟨[name], []⟩

/-- A round of a search that does not find its target, with any of the names that wait. -/
inductive Round (t : ClassTable) (target : Text) : Search → Search → Prop
  /-- A name that was taken up before is struck out. -/
  | again {name : Text} {before after seen : List Text} (hne : name ≠ target)
      (hseen : name ∈ seen) :
      Round t target ⟨before ++ name :: after, seen⟩ ⟨before ++ after, seen⟩
  /-- A name is taken up, and its supertypes wait with the others, in any order. -/
  | takeUp {name : Text} {before after pending seen : List Text} (hne : name ≠ target)
      (hseen : name ∉ seen) (hpending : pending.Perm (t.supertypesOf name ++ (before ++ after))) :
      Round t target ⟨before ++ name :: after, seen⟩ ⟨pending, name :: seen⟩

/-- The answer of a search at its end: it takes the target, or no name is left. -/
inductive Search.Answers (target : Text) : Search → Bool → Prop
  | found {s : Search} (h : target ∈ s.pending) : Answers target s true
  | exhausted {seen : List Text} : Answers target ⟨[], seen⟩ false

variable {t : ClassTable} {name target : Text} {s s' : Search} {answer : Bool}

/-- A search that has no answer yet goes on. -/
theorem exists_round_or_answer (t : ClassTable) (target : Text) (s : Search) :
    (∃ s', t.Round target s s') ∨ ∃ answer, s.Answers target answer := by
  obtain ⟨pending, seen⟩ := s
  cases pending with
  | nil => exact Or.inr ⟨false, .exhausted⟩
  | cons name pending =>
    by_cases hne : name = target
    · subst hne
      exact Or.inr ⟨true, .found List.mem_cons_self⟩
    · show (∃ s', t.Round target ⟨[] ++ name :: pending, seen⟩ s') ∨ _
      by_cases hseen : name ∈ seen
      · exact Or.inl ⟨_, .again hne hseen⟩
      · exact Or.inl ⟨_, .takeUp hne hseen (List.Perm.refl _)⟩

/-! ## The number of rounds -/

/-- How often the classes of a table name a supertype. -/
def links (t : ClassTable) : Nat := (t.stubs.flatMap ClassStub.supertypes).length

/-- How often the classes that a search has not taken up name a supertype. -/
def openLinks (t : ClassTable) (seen : List Text) : Nat :=
  ((t.stubs.filter fun stub => !seen.contains stub.binaryName).flatMap ClassStub.supertypes).length

/-- What bounds the rounds that are left: the names that wait or may still come. -/
def cost (t : ClassTable) (s : Search) : Nat := s.pending.length + t.openLinks s.seen

theorem cost_start (t : ClassTable) (name : Text) : t.cost (.start name) = t.links + 1 := by
  have hall : (t.stubs.filter fun stub => !([] : List Text).contains stub.binaryName) = t.stubs := by simp
  show 1 + ((t.stubs.filter fun stub => !([] : List Text).contains stub.binaryName).flatMap
    ClassStub.supertypes).length = t.links + 1
  rw [hall, Nat.add_comm]
  rfl

/-- The supertypes of a name are among those that may still come, as long as it is not taken up. -/
theorem length_supertypesOf_le {seen : List Text} (h : name ∉ seen) :
    (t.supertypesOf name).length + t.openLinks (name :: seen) ≤ t.openLinks seen := by
  let isOpen : ClassStub → Bool := fun stub => !seen.contains stub.binaryName
  let isOther : ClassStub → Bool := fun stub => stub.binaryName ≠ name
  -- The open classes are those of another name, which stay open, and those of this name.
  have hsplit := List.filter_append_perm isOther (t.stubs.filter isOpen)
  have hlinks := (hsplit.flatMap_right ClassStub.supertypes).length_eq
  rw [List.flatMap_append, List.length_append] at hlinks
  have hother : (t.stubs.filter isOpen).filter isOther =
      t.stubs.filter fun stub => !(name :: seen).contains stub.binaryName := by
    rw [List.filter_filter]
    refine List.filter_congr fun stub _ => ?_
    simp [isOpen, isOther]
  have hown : (t.supertypesOf name).length ≤
      (((t.stubs.filter isOpen).filter fun stub => !isOther stub).flatMap
        ClassStub.supertypes).length := by
    unfold supertypesOf
    cases hstub : t.stub? name with
    | none => exact Nat.zero_le _
    | some stub =>
      have hname := binaryName_of_stub? hstub
      have hmem : stub ∈ (t.stubs.filter isOpen).filter fun stub => !isOther stub := by
        simp [isOpen, isOther, hname, h, List.mem_of_find?_eq_some hstub]
      have hsub : List.Sublist stub.supertypes _ :=
        List.sublist_flatten_of_mem (List.mem_map_of_mem hmem)
      rw [List.flatMap_def]
      exact hsub.length_le
  rw [hother] at hlinks
  show _ + ((t.stubs.filter fun stub => !(name :: seen).contains stub.binaryName).flatMap
    ClassStub.supertypes).length ≤ ((t.stubs.filter isOpen).flatMap ClassStub.supertypes).length
  omega

/-- **Every round makes the names that wait or may still come fewer.** -/
theorem Round.cost_lt (h : t.Round target s s') : t.cost s' < t.cost s := by
  cases h with
  | again _ _ =>
    simp only [cost, List.length_append, List.length_cons]
    omega
  | takeUp _ hseen hpending =>
    have hlinks := length_supertypesOf_le (t := t) hseen
    simp only [cost, hpending.length_eq, List.length_append, List.length_cons]
    omega

/-- No search goes on for more rounds than there are names that wait or may still come. -/
theorem length_le_cost {run : List Search} (h : List.IsChain (t.Round target) (s :: run)) :
    run.length ≤ t.cost s := by
  induction run generalizing s with
  | nil => exact Nat.zero_le _
  | cons next run ih =>
    rw [List.isChain_cons_cons] at h
    obtain ⟨hround, hrest⟩ := h
    exact Nat.lt_of_le_of_lt (ih hrest) hround.cost_lt

/-! ## The answer -/

/-- The order of the names that wait does not matter. -/
theorem IsFrontier.perm {pending pending' seen : List Text}
    (h : t.IsFrontier target pending seen) (hp : pending.Perm pending') :
    t.IsFrontier target pending' seen := by
  refine ⟨h.target_notMem, fun n hn supertype hs hb => ?_⟩
  rw [← hp.mem_iff]
  exact h.supertype_mem n hn supertype hs hb

theorem exists_mem_middle_iff {p : Text → Prop} {before after : List Text} :
    (∃ n ∈ before ++ name :: after, p n) ↔ p name ∨ ∃ n ∈ before ++ after, p n := by
  simp only [List.mem_append, List.mem_cons, or_and_right, exists_or, exists_eq_left]
  exact or_left_comm

namespace Round

/-- **No round loses a path.** -/
theorem isFrontier (hr : t.Round target s s') (h : t.IsFrontier target s.pending s.seen) :
    t.IsFrontier target s'.pending s'.seen := by
  cases hr with
  | again _ hseen => exact (h.perm List.perm_middle).drop fun _ => hseen
  | takeUp hne _ hpending => exact ((h.perm List.perm_middle).takeUp hne).perm hpending.symm

/-- **No round changes whether a path leads from a name that waits to the target.** -/
theorem exists_below_iff (hr : t.Round target s s') (h : t.IsFrontier target s.pending s.seen) :
    (∃ name ∈ s'.pending, t.Below name target) ↔ ∃ name ∈ s.pending, t.Below name target := by
  have hnext := hr.isFrontier h
  cases hr with
  | @again name before after seen hne hseen =>
    rw [exists_mem_middle_iff]
    exact ⟨Or.inr, fun hb => hb.elim (hnext.exists_pending hseen) id⟩
  | @takeUp name before after pending seen hne _ hpending =>
    simp only [exists_mem_middle_iff, hpending.mem_iff, below_iff_of_ne hne, or_and_right,
      exists_or, List.mem_append (s := t.supertypesOf name)]

end Round

/-- What holds of a search at its start holds after any number of rounds. -/
theorem isFrontier_and_exists_below_iff (h : ReflTransGen (t.Round target) (.start name) s) :
    t.IsFrontier target s.pending s.seen ∧
      ((∃ next ∈ s.pending, t.Below next target) ↔ t.Below name target) := by
  induction h with
  | refl => exact ⟨isFrontier_nil t target [name], by simp [Search.start]⟩
  | tail _ hr ih => exact ⟨hr.isFrontier ih.1, (hr.exists_below_iff ih.1).trans ih.2⟩

/-- The answer of a search is whether a path leads from a name that waits to the target. -/
theorem Search.Answers.eq_true_iff (h : s.Answers target answer) :
    answer = true ↔ ∃ next ∈ s.pending, t.Below next target := by
  cases h with
  | found hm => exact ⟨fun _ => ⟨target, hm, .refl⟩, fun _ => rfl⟩
  | exhausted => simp

/--
**The search upwards ends, and decides whether a class is assignable to another one.** Of the searches
for one class from another, in whatever order they take up the names:

1. None goes on for more rounds than supertypes are named in the table, and one.
2. None is stuck: it goes on, or has an answer.
3. All answer the same.
4. The class is assignable exactly when the other one is `java.lang.Object` or a path of supertypes
   leads there.
-/
theorem isAssignable_iff_below (t : ClassTable) (a b : Text) :
    (∀ run, List.IsChain (t.Round b) (.start a :: run) → run.length ≤ t.links + 1) ∧
    (∀ s, (∃ s', t.Round b s s') ∨ ∃ answer, s.Answers b answer) ∧
    (∀ s answer, ReflTransGen (t.Round b) (.start a) s → s.Answers b answer →
      answer = t.isBelow a b) ∧
    (t.isAssignable ⟨.reference a, 0⟩ ⟨.reference b, 0⟩ = true ↔
      b = objectName ∨ t.Below a b) := by
  refine ⟨fun run h => ?_, exists_round_or_answer t b, fun s answer hs h => ?_, ?_⟩
  · rw [← cost_start t a]
    exact length_le_cost h
  · rw [Bool.eq_iff_iff, h.eq_true_iff, isBelow_iff]
    exact (isFrontier_and_exists_below_iff hs).2
  · show (decide (b = objectName) || t.isBelow a b) = true ↔ _
    rw [Bool.or_eq_true, decide_eq_true_iff, isBelow_iff]

end JvmSignature.ClassTable
