import JvmSignature.ClassTable.Subtyping
import Mathlib.Data.List.Basic
import Mathlib.Logic.Relation

/-!
# The search upwards finds every supertype

A class table is a graph: each class points to its direct supertypes, and a name that no class has
points nowhere. The search for a supertype takes up each class once. `isBelow_iff` says that this
loses nothing: the search finds a name exactly when a path leads to it, in cyclic hierarchies too.

What carries the proof is the frontier of a search: a supertype of a class that was taken up was
taken up itself or is still pending, so a path out of the classes taken up passes a pending name.
-/

namespace JvmSignature.ClassTable

open Relation (ReflTransGen)

/-! ## Supertypes at any distance -/

/-- Whether a class names another one as its superclass or among its interfaces. -/
def IsSupertype (t : ClassTable) (name supertype : Text) : Prop :=
  ∃ stub, t.stub? name = some stub ∧ supertype ∈ stub.supertypes

/-- The supertypes that a class names. A name that no class has stands for none. -/
def supertypesOf (t : ClassTable) (name : Text) : List Text :=
  match t.stub? name with
  | some stub => stub.supertypes
  | none => []

/-- Whether a path of supertypes, which may be empty, leads from a name to another one. -/
def Below (t : ClassTable) : Text → Text → Prop := ReflTransGen t.IsSupertype

variable {t : ClassTable} {name target : Text} {stub : ClassStub} {pending seen : List Text}

theorem supertypesOf_of_stub? (h : t.stub? name = some stub) :
    t.supertypesOf name = stub.supertypes := by
  rw [supertypesOf, h]

theorem mem_supertypesOf_iff {supertype : Text} :
    supertype ∈ t.supertypesOf name ↔ t.IsSupertype name supertype := by
  unfold supertypesOf IsSupertype
  cases t.stub? name <;> simp

theorem not_isSupertype_of_stub?_none (h : t.stub? name = none) (supertype : Text) :
    ¬ t.IsSupertype name supertype := by
  rintro ⟨stub, hstub, -⟩
  rw [h] at hstub
  cases hstub

/-- No path leads away from a name without supertypes. -/
theorem Below.eq_of_no_supertypes (h : ∀ supertype, ¬ t.IsSupertype name supertype)
    (hb : t.Below name target) : target = name := by
  rcases ReflTransGen.cases_head hb with rfl | ⟨supertype, hs, -⟩
  · rfl
  · exact absurd hs (h supertype)

/-- A path from a class to another name starts at one of its supertypes. -/
theorem below_iff_of_ne (hne : name ≠ target) :
    t.Below name target ↔ ∃ supertype ∈ t.supertypesOf name, t.Below supertype target := by
  constructor
  · intro hb
    rcases ReflTransGen.cases_head hb with rfl | ⟨supertype, hs, hrest⟩
    · exact absurd rfl hne
    · exact ⟨supertype, mem_supertypesOf_iff.mpr hs, hrest⟩
  · rintro ⟨supertype, hs, hb⟩
    exact ReflTransGen.head (mem_supertypesOf_iff.mp hs) hb

/-! ## The search -/

/-- What holds of the names that a search has taken up: none is the target, and a supertype of one
that is below the target was taken up too or is pending. -/
structure IsFrontier (t : ClassTable) (target : Text) (pending seen : List Text) : Prop where
  target_notMem : target ∉ seen
  supertype_mem : ∀ name ∈ seen, ∀ supertype, t.IsSupertype name supertype →
    t.Below supertype target → supertype ∈ seen ∨ supertype ∈ pending

/-- A search starts with any names, having taken up none. -/
theorem isFrontier_nil (t : ClassTable) (target : Text) (pending : List Text) :
    t.IsFrontier target pending [] :=
  ⟨List.not_mem_nil, fun _ h => absurd h List.not_mem_nil⟩

namespace IsFrontier

/-- A path from a name that was taken up to the target passes a pending name. -/
theorem exists_pending (h : t.IsFrontier target pending seen) (hm : name ∈ seen)
    (hb : t.Below name target) : ∃ next ∈ pending, t.Below next target := by
  induction hb using ReflTransGen.head_induction_on with
  | refl => exact absurd hm h.target_notMem
  | head hstep hrest ih =>
    rcases h.supertype_mem _ hm _ hstep hrest with hseen | hpending
    · exact ih hseen
    · exact ⟨_, hpending, hrest⟩

/-- A pending name that was taken up before may be left out, and so may one that leads nowhere. -/
theorem drop (h : t.IsFrontier target (name :: pending) seen)
    (hdrop : t.Below name target → name ∈ seen) : t.IsFrontier target pending seen := by
  refine ⟨h.target_notMem, fun n hn supertype hs hb => ?_⟩
  rcases h.supertype_mem n hn supertype hs hb with hseen | hpending
  · exact Or.inl hseen
  · rcases List.mem_cons.mp hpending with rfl | hpending
    · exact Or.inl (hdrop hb)
    · exact Or.inr hpending

/-- A name is taken up by putting its supertypes in its place. -/
theorem takeUp (h : t.IsFrontier target (name :: pending) seen) (hne : name ≠ target) :
    t.IsFrontier target (t.supertypesOf name ++ pending) (name :: seen) := by
  constructor
  · rintro hm
    rcases List.mem_cons.mp hm with rfl | hm
    · exact hne rfl
    · exact h.target_notMem hm
  · intro n hn supertype hs hb
    rcases List.mem_cons.mp hn with rfl | hn
    · exact Or.inr (List.mem_append_left _ (mem_supertypesOf_iff.mpr hs))
    · rcases h.supertype_mem n hn supertype hs hb with hseen | hpending
      · exact Or.inl (List.mem_cons_of_mem _ hseen)
      · rcases List.mem_cons.mp hpending with rfl | hpending
        · exact Or.inl List.mem_cons_self
        · exact Or.inr (List.mem_append_right _ hpending)

end IsFrontier

/-- **A search finds its target exactly when a path leads there from a pending name.** -/
theorem reaches_iff (h : t.IsFrontier target pending seen) :
    t.reaches target pending seen = true ↔ ∃ name ∈ pending, t.Below name target := by
  fun_induction t.reaches target pending seen with
  | case1 seen => simp
  | case2 seen pending =>
    exact ⟨fun _ => ⟨target, List.mem_cons_self, .refl⟩, fun _ => rfl⟩
  | case3 seen name pending hne hseen ih =>
    have hdrop := h.drop fun _ => hseen
    rw [ih hdrop, List.exists_mem_cons_iff]
    exact ⟨Or.inr, fun hb => hb.elim (hdrop.exists_pending hseen) id⟩
  | case4 seen name pending hne hseen hstub ih =>
    have hnot : ¬ t.Below name target := fun hb =>
      hne (hb.eq_of_no_supertypes (not_isSupertype_of_stub?_none hstub)).symm
    rw [ih (h.drop fun hb => absurd hb hnot), List.exists_mem_cons_iff]
    exact ⟨Or.inr, fun hb => hb.resolve_left hnot⟩
  | case5 seen name pending hne hseen stub hstub ih =>
    have htaken := h.takeUp hne
    rw [supertypesOf_of_stub? hstub] at htaken
    rw [ih htaken, List.exists_mem_cons_iff, below_iff_of_ne hne, supertypesOf_of_stub? hstub]
    simp only [List.mem_append, or_and_right, exists_or]

/-- **A class is below another one exactly when a path of supertypes leads from it to the other.** -/
theorem isBelow_iff {a b : Text} : t.isBelow a b = true ↔ t.Below a b := by
  rw [isBelow, reaches_iff (isFrontier_nil t b [a])]
  simp

end JvmSignature.ClassTable
