import JvmSignature.Proofs.ClassTable.Assignability

/-!
# The rules of assignability, and arrays

Assignability is usually given by rules. Every type is assignable to itself, all but the primitive
types to `java.lang.Object`, arrays to the interfaces of arrays, a class to its supertypes, and an
array to another one where its components are assignable to those of the other, if neither components
are primitive. `isAssignable_iff_allows` says that the recursion over the dimensions follows these
rules.

The rules take one dimension off both types at a time, and look at the components each time.
`isAssignable_array_iff` says in one step where this ends for elements under any two numbers of
dimensions.
-/

namespace JvmSignature

namespace Descriptor

/-- Whether a type is a class or interface itself, no array of it. -/
def IsReference (d : Descriptor) : Prop := ∃ name, d = ⟨.reference name, 0⟩

theorem component?_eq_some_iff {d c : Descriptor} :
    d.component? = some c ↔ d = ⟨c.element, c.depth + 1⟩ := by
  obtain ⟨e, depth⟩ := d
  cases depth with
  | zero => simp [component?]
  | succ n =>
    simp only [component?, Option.some.injEq, mk.injEq, Nat.succ.injEq]
    constructor
    · rintro rfl
      exact ⟨rfl, rfl⟩
    · rintro ⟨rfl, rfl⟩
      rfl

/-- What is no array is the element that its arrays are made of. -/
theorem eq_of_isArray_false {d : Descriptor} (h : d.isArray = false) : d = ⟨d.element, 0⟩ := by
  obtain ⟨e, depth⟩ := d
  obtain rfl : depth = 0 := by simpa [isArray] using h
  rfl

theorem isPrimitive_succ (e : Element) (n : Nat) : isPrimitive ⟨e, n + 1⟩ = false := by
  cases e <;> rfl

end Descriptor

namespace ClassTable

variable {t : ClassTable} {d : Descriptor} {e f : Element} {m n : Nat}

/-! ## Rules -/

/-- The rules of assignability. -/
inductive Allows (t : ClassTable) : Descriptor → Descriptor → Prop
  | refl (d : Descriptor) : Allows t d d
  | object {d : Descriptor} (h : d.isPrimitive = false) : Allows t d ⟨.reference objectName, 0⟩
  | arrayInterface {d : Descriptor} {name : Text} (h : d.isArray = true)
      (hname : name ∈ arrayInterfaces) : Allows t d ⟨.reference name, 0⟩
  | supertype {a b : Text} (h : t.Below a b) : Allows t ⟨.reference a, 0⟩ ⟨.reference b, 0⟩
  | components {d d' c c' : Descriptor} (hd : d.component? = some c) (hd' : d'.component? = some c')
      (hc : c.isPrimitive = false) (hc' : c'.isPrimitive = false) (h : Allows t c c') :
      Allows t d d'

/-- One more dimension on both sides. -/
theorem Allows.succ (h : t.Allows ⟨e, m⟩ ⟨f, n⟩) (he : Descriptor.isPrimitive ⟨e, m⟩ = false)
    (hf : Descriptor.isPrimitive ⟨f, n⟩ = false) : t.Allows ⟨e, m + 1⟩ ⟨f, n + 1⟩ :=
  .components rfl rfl he hf h

/-- Elements that widen are allowed under any number of dimensions. -/
theorem Widens.allows (h : t.Widens e f) (n : Nat) : t.Allows ⟨e, n⟩ ⟨f, n⟩ := by
  cases h with
  | primitive p => exact .refl _
  | object a =>
    induction n with
    | zero => exact .object rfl
    | succ n ih => exact ih.succ rfl rfl
  | below hb =>
    induction n with
    | zero => exact .supertype hb
    | succ n ih => exact ih.succ rfl rfl

/-- Every array is allowed where a supertype of all arrays stands under fewer dimensions. -/
theorem allows_of_isArraySupertype (h : f.IsArraySupertype) (e : Element) (hlt : n < m) :
    t.Allows ⟨e, m⟩ ⟨f, n⟩ := by
  obtain ⟨name, hname, rfl⟩ := h
  obtain ⟨k, rfl⟩ := Nat.exists_eq_add_of_lt hlt
  induction n with
  | zero =>
    rw [Nat.zero_add]
    rcases List.mem_cons.mp hname with rfl | hinterface
    · exact .object (Descriptor.isPrimitive_succ e k)
    · exact .arrayInterface rfl hinterface
  | succ n ih =>
    have hinner := ih (by omega)
    rw [Nat.add_right_comm n 1 k]
    exact hinner.succ (Descriptor.isPrimitive_succ e (n + k)) rfl

/-- **The recursion over the dimensions follows the rules.** -/
theorem isAssignable_iff_allows {d d' : Descriptor} :
    t.isAssignable d d' = true ↔ t.Allows d d' := by
  constructor
  · intro h
    obtain ⟨e, m⟩ := d
    obtain ⟨f, n⟩ := d'
    rcases assigns_iff.mp h with ⟨rfl, hw⟩ | ⟨hlt, hf⟩
    · exact hw.allows m
    · exact allows_of_isArraySupertype hf e hlt
  · intro h
    induction h with
    | refl d => exact assigns_iff.mpr (Or.inl ⟨rfl, .refl t _⟩)
    | @object d hd =>
      obtain ⟨e, m⟩ := d
      cases m with
      | zero =>
        cases e with
        | primitive p => cases hd
        | reference a => exact assigns_zero_zero_iff.mpr (.object a)
      | succ m => exact assigns_succ_zero_iff.mpr ⟨objectName, List.mem_cons_self, rfl⟩
    | @arrayInterface d name hd hname =>
      rw [Descriptor.isArray, bne_iff_ne] at hd
      exact assigns_iff.mpr
        (Or.inr ⟨Nat.pos_of_ne_zero hd, name, List.mem_cons_of_mem _ hname, rfl⟩)
    | supertype hb => exact assigns_zero_zero_iff.mpr (.below hb)
    | components hd hd' _ _ _ ih =>
      rw [Descriptor.component?_eq_some_iff.mp hd, Descriptor.component?_eq_some_iff.mp hd']
      exact ih

/-! ## Elements under any numbers of dimensions -/

/-- Elements widen when they are the same one, or classes of which one is assignable to the other. -/
theorem widens_iff : t.Widens e f ↔
    e = f ∨ Descriptor.IsReference ⟨e, 0⟩ ∧ Descriptor.IsReference ⟨f, 0⟩ ∧
      t.isAssignable ⟨e, 0⟩ ⟨f, 0⟩ = true := by
  constructor
  · intro h
    have hassigned : t.isAssignable ⟨e, 0⟩ ⟨f, 0⟩ = true := assigns_zero_zero_iff.mpr h
    cases h with
    | primitive p => exact Or.inl rfl
    | object a => exact Or.inr ⟨⟨a, rfl⟩, ⟨objectName, rfl⟩, hassigned⟩
    | @below a b _ => exact Or.inr ⟨⟨a, rfl⟩, ⟨b, rfl⟩, hassigned⟩
  · rintro (rfl | ⟨-, -, h⟩)
    · exact .refl t e
    · exact assigns_zero_zero_iff.mp h

/--
**Arrays of any two depths.** The rules allow exactly what is assignable. Of two types that are no
arrays, under any numbers of dimensions, the first is assignable to the second when

* both have the same number, and the types are the same one or classes of which the first is
  assignable to the second, or
* the first has more, and the second type is a supertype of all arrays.

So an array is never assignable to one of more dimensions, and different primitive types never mix.
-/
theorem isAssignable_array_iff (t : ClassTable) {d d' : Descriptor} (hd : d.isArray = false)
    (hd' : d'.isArray = false) (m n : Nat) :
    (t.isAssignable (d.array m) (d'.array n) = true ↔ t.Allows (d.array m) (d'.array n)) ∧
    (t.isAssignable (d.array m) (d'.array n) = true ↔
      (m = n ∧ (d = d' ∨ d.IsReference ∧ d'.IsReference ∧ t.isAssignable d d' = true)) ∨
      (n < m ∧ ∃ name ∈ arraySupertypes, d' = ⟨.reference name, 0⟩)) ∧
    (m < n → t.isAssignable (d.array m) (d'.array n) = false) ∧
    (∀ p q, d = .primitive p → d' = .primitive q → p ≠ q →
      t.isAssignable (d.array m) (d'.array n) = false) := by
  obtain ⟨e, rfl⟩ : ∃ e, d = ⟨e, 0⟩ := ⟨_, Descriptor.eq_of_isArray_false hd⟩
  obtain ⟨f, rfl⟩ : ∃ f, d' = ⟨f, 0⟩ := ⟨_, Descriptor.eq_of_isArray_false hd'⟩
  have hdepths : t.isAssignable (Descriptor.array ⟨e, 0⟩ m) (Descriptor.array ⟨f, 0⟩ n) = true ↔
      (m = n ∧ t.Widens e f) ∨ (n < m ∧ f.IsArraySupertype) := by
    show t.assigns e f (0 + m) (0 + n) = true ↔ _
    rw [Nat.zero_add, Nat.zero_add, assigns_iff]
  refine ⟨isAssignable_iff_allows, ?_, fun hlt => ?_, ?_⟩
  · simp only [hdepths, widens_iff, Element.IsArraySupertype, Descriptor.mk.injEq, and_true]
  · rw [← Bool.not_eq_true, hdepths]
    omega
  · rintro p q ⟨⟩ ⟨⟩ hpq
    rw [← Bool.not_eq_true, hdepths]
    rintro (⟨-, ⟨⟩⟩ | ⟨-, name, -, ⟨⟩⟩)
    exact hpq rfl

/-- Arrays of arrays of integers are arrays of serializable objects, and no arrays of arrays of long
integers. -/
theorem isAssignable_array_iff_int :
    let int := Descriptor.primitive .int
    let long := Descriptor.primitive .long
    let serializable : Descriptor := ⟨.reference "java.io.Serializable".toList, 0⟩
    int.isArray = false ∧ long.isArray = false ∧ serializable.isArray = false ∧
      platform.isAssignable (int.array 2) (serializable.array 1) = true ∧
      platform.isAssignable (int.array 2) (long.array 2) = false := by
  intro int long serializable
  have hint : int.isArray = false := rfl
  have hlong : long.isArray = false := rfl
  have hserializable : serializable.isArray = false := rfl
  obtain ⟨-, hassigned, -, -⟩ := isAssignable_array_iff platform hint hserializable 2 1
  obtain ⟨-, -, -, hmixed⟩ := isAssignable_array_iff platform hint hlong 2 2
  refine ⟨hint, hlong, hserializable, ?_, hmixed .int .long rfl rfl (by decide)⟩
  exact hassigned.mpr (Or.inr ⟨by decide, _, by decide, rfl⟩)

end ClassTable

end JvmSignature
