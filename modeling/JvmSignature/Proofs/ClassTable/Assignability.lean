import JvmSignature.ClassTable.Platform
import JvmSignature.Proofs.ClassTable.Reachability

/-!
# Assignability is a preorder

Elements widen to one another by their own rule, and arrays of equal depth widen as their elements
do. An array of greater depth is assignable to what every array is assignable to, and to arrays of
it. `assigns_iff` says that there is nothing else to the recursion over the dimensions.

So a chain of assignments can go wrong in one place only: where an array is assigned to one of the
supertypes of arrays, and this class to a supertype of its own. Tables that are made by adding classes
to the platform give the supertypes of arrays none, and there assignability is a preorder
(`isAssignable_preorder`).
-/

namespace JvmSignature

/-- The classes that every array is assignable to. -/
def arraySupertypes : List Text := objectName :: arrayInterfaces

/-- Whether every array is assignable to an element. -/
def Element.IsArraySupertype (e : Element) : Prop := ∃ name ∈ arraySupertypes, e = .reference name

namespace ClassTable

/-! ## Elements -/

/-- Whether an element widens to another: a primitive type to itself only, a class to its supertypes
and to `java.lang.Object`. -/
inductive Widens (t : ClassTable) : Element → Element → Prop
  | primitive (p : Primitive) : Widens t (.primitive p) (.primitive p)
  | object (a : Text) : Widens t (.reference a) (.reference objectName)
  | below {a b : Text} (h : t.Below a b) : Widens t (.reference a) (.reference b)

variable {t : ClassTable} {e f g : Element} {m n k : Nat}

theorem Widens.refl (t : ClassTable) (e : Element) : t.Widens e e := by
  cases e with
  | primitive p => exact .primitive p
  | reference a => exact .below .refl

theorem assigns_zero_zero_iff : t.assigns e f 0 0 = true ↔ t.Widens e f := by
  cases e with
  | primitive p =>
    rw [assigns, decide_eq_true_iff]
    · constructor
      · rintro rfl
        exact .primitive p
      · rintro ⟨⟩
        rfl
    · rintro a b ⟨⟩
  | reference a =>
    cases f with
    | primitive p =>
      rw [assigns, decide_eq_true_iff]
      · exact ⟨nofun, nofun⟩
      · rintro a b - ⟨⟩
    | reference b =>
      rw [assigns, Bool.or_eq_true, decide_eq_true_iff, isBelow_iff]
      constructor
      · rintro (rfl | h)
        · exact .object a
        · exact .below h
      · rintro (_ | _ | h)
        · exact Or.inl rfl
        · exact Or.inr h

/-! ## Arrays -/

theorem assigns_succ_zero_iff : t.assigns e f (m + 1) 0 = true ↔ f.IsArraySupertype := by
  cases f with
  | primitive p =>
    refine ⟨nofun, ?_⟩
    rintro ⟨name, -, ⟨⟩⟩
  | reference b =>
    rw [assigns, Bool.or_eq_true, decide_eq_true_iff, List.contains_iff_mem, ← List.mem_cons]
    constructor
    · intro h
      exact ⟨b, h, rfl⟩
    · rintro ⟨name, h, ⟨⟩⟩
      exact h

/--
**Assignability by depths.** Arrays of equal depth are assignable as their elements widen; an array
of greater depth is assignable where the other element is a supertype of all arrays; an array of
smaller depth never is.
-/
theorem assigns_iff :
    t.assigns e f m n = true ↔ (m = n ∧ t.Widens e f) ∨ (n < m ∧ f.IsArraySupertype) := by
  induction m generalizing n with
  | zero =>
    cases n with
    | zero => simp [assigns_zero_zero_iff]
    | succ n => simp [assigns]
  | succ m ih =>
    cases n with
    | zero => simp [assigns_succ_zero_iff]
    | succ n => simp [assigns, ih]

/-! ## Chains of assignments -/

/-- Whether the classes that every array is assignable to have no supertypes of their own. -/
def HasBareArraySupertypes (t : ClassTable) : Prop :=
  ∀ name ∈ arraySupertypes, ∀ supertype, ¬ t.IsSupertype name supertype

namespace HasBareArraySupertypes

/-- What a supertype of all arrays widens to is a supertype of all arrays. -/
theorem isArraySupertype_of_widens (h : t.HasBareArraySupertypes) (he : e.IsArraySupertype)
    (hw : t.Widens e f) : f.IsArraySupertype := by
  obtain ⟨name, hm, rfl⟩ := he
  cases hw with
  | object => exact ⟨objectName, List.mem_cons_self, rfl⟩
  | below hb =>
    obtain rfl := hb.eq_of_no_supertypes (h name hm)
    exact ⟨_, hm, rfl⟩

theorem widens_trans (h : t.HasBareArraySupertypes) (hef : t.Widens e f) (hfg : t.Widens f g) :
    t.Widens e g := by
  cases hef with
  | primitive p => exact hfg
  | object a =>
    cases hfg with
    | object => exact .object a
    | below hb =>
      obtain rfl := hb.eq_of_no_supertypes (h objectName List.mem_cons_self)
      exact .object a
  | below hab =>
    cases hfg with
    | object => exact .object _
    | below hbc => exact .below (hab.trans hbc)

theorem assigns_trans (h : t.HasBareArraySupertypes) (hef : t.assigns e f m n = true)
    (hfg : t.assigns f g n k = true) : t.assigns e g m k = true := by
  rw [assigns_iff] at hef hfg ⊢
  rcases hef with ⟨rfl, hef⟩ | ⟨hm, hf⟩
  · rcases hfg with ⟨rfl, hfg⟩ | ⟨hn, hg⟩
    · exact Or.inl ⟨rfl, h.widens_trans hef hfg⟩
    · exact Or.inr ⟨hn, hg⟩
  · rcases hfg with ⟨rfl, hfg⟩ | ⟨hn, hg⟩
    · exact Or.inr ⟨hm, h.isArraySupertype_of_widens hf hfg⟩
    · exact Or.inr ⟨Nat.lt_trans hn hm, hg⟩

end HasBareArraySupertypes

/-! ## Tables over the platform -/

/-- The table with more classes, each in the place of an earlier one of its name. -/
def addAll (t : ClassTable) (stubs : List ClassStub) : ClassTable := stubs.foldl add t

theorem hasBareArraySupertypes_platform : platform.HasBareArraySupertypes := by
  have hnone : ∀ name ∈ arraySupertypes,
      ∀ stub ∈ Platform.classes, stub.binaryName = name → stub.supertypes = [] := by
    decide +kernel
  rintro name hm supertype ⟨stub, hstub, hs⟩
  have hempty := hnone name hm stub (List.mem_of_find?_eq_some hstub) (binaryName_of_stub? hstub)
  rw [hempty] at hs
  cases hs

theorem HasBareArraySupertypes.add {stub : ClassStub} (h : t.HasBareArraySupertypes)
    (hstub : stub.binaryName ∉ arraySupertypes) : (t.add stub).HasBareArraySupertypes := by
  rintro name hm supertype ⟨found, hfound, hs⟩
  have hne : stub.binaryName ≠ name := fun he => hstub (he ▸ hm)
  rw [stub?_add, if_neg hne] at hfound
  exact h name hm supertype ⟨found, hfound, hs⟩

theorem HasBareArraySupertypes.addAll {stubs : List ClassStub} (h : t.HasBareArraySupertypes)
    (hstubs : ∀ stub ∈ stubs, stub.binaryName ∉ arraySupertypes) :
    (t.addAll stubs).HasBareArraySupertypes := by
  induction stubs generalizing t with
  | nil => exact h
  | cons stub stubs ih =>
    obtain ⟨hfirst, hrest⟩ := List.forall_mem_cons.mp hstubs
    exact ih (h.add hfirst) hrest

/--
**Assignability is a preorder** on the types of every table that is made by adding classes to the
platform, whatever their hierarchies are, if none of them takes the place of a supertype of arrays.
-/
theorem isAssignable_preorder (stubs : List ClassStub)
    (hstubs : ∀ stub ∈ stubs, stub.binaryName ∉ arraySupertypes) :
    (∀ a, (platform.addAll stubs).isAssignable a a = true) ∧
    ∀ a b c, (platform.addAll stubs).isAssignable a b = true →
      (platform.addAll stubs).isAssignable b c = true →
      (platform.addAll stubs).isAssignable a c = true := by
  have hbare := hasBareArraySupertypes_platform.addAll hstubs
  constructor
  · intro a
    exact assigns_iff.mpr (Or.inl ⟨rfl, .refl _ _⟩)
  · intro a b c hab hbc
    exact hbare.assigns_trans hab hbc

/-- Arrays of two classes that are each below the other, and of an interface that no table holds. -/
theorem isAssignable_preorder_cyclic :
    let first : ClassStub := ⟨"a.A".toList, 1, some "a.B".toList, [], []⟩
    let second : ClassStub := ⟨"a.B".toList, 1, some "a.A".toList, ["a.Missing".toList], []⟩
    let t := platform.addAll [first, second]
    let arrayOf := fun name : String => (Descriptor.reference name.toList).array 2
    (∀ stub ∈ [first, second], stub.binaryName ∉ arraySupertypes) ∧
      t.isAssignable (arrayOf "a.A") (arrayOf "a.B") = true ∧
      t.isAssignable (arrayOf "a.B") (arrayOf "a.Missing") = true ∧
      t.isAssignable (arrayOf "a.A") (arrayOf "a.Missing") = true := by
  intro first second t arrayOf
  have hstubs : ∀ stub ∈ [first, second], stub.binaryName ∉ arraySupertypes := by decide +kernel
  have hfirst : t.IsSupertype "a.A".toList "a.B".toList := ⟨first, by rfl, by decide⟩
  have hsecond : t.IsSupertype "a.B".toList "a.Missing".toList := ⟨second, by rfl, by decide⟩
  have hab : t.isAssignable (arrayOf "a.A") (arrayOf "a.B") = true :=
    assigns_iff.mpr (Or.inl ⟨rfl, .below (.single hfirst)⟩)
  have hbc : t.isAssignable (arrayOf "a.B") (arrayOf "a.Missing") = true :=
    assigns_iff.mpr (Or.inl ⟨rfl, .below (.single hsecond)⟩)
  exact ⟨hstubs, hab, hbc, (isAssignable_preorder [first, second] hstubs).2 _ _ _ hab hbc⟩

/-- With an interface of arrays that has a supertype, a chain of assignments may break. -/
example :
    let t : ClassTable := ⟨[⟨"java.lang.Cloneable".toList, 1, none, ["a.Base".toList], []⟩]⟩
    let ints := (Descriptor.primitive .int).array 1
    let cloneable := Descriptor.reference "java.lang.Cloneable".toList
    let base := Descriptor.reference "a.Base".toList
    t.isAssignable ints cloneable = true ∧ t.isAssignable cloneable base = true ∧
      t.isAssignable ints base = false := by
  cbv

end ClassTable

end JvmSignature
