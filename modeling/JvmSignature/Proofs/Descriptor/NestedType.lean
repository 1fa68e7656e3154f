import JvmSignature.Descriptor.Nested
import JvmSignature.Proofs.Descriptor.Reading
import Mathlib.Logic.ExistsUnique

/-!
# The normal form of types

In normal form every array has a dimension and is an array of an element. A sum of dimensions that
is just one more than the greatest number of a word is zero, and an array is left without dimension:
this is how a type leaves the normal form (`NestedType.IsNormal.wrap_iff`). A greater sum keeps the
form but names a type with fewer dimensions.

The types in normal form are those that are descriptors with as many dimensions as a word can count
(`NestedType.isNormal_iff`), and as long as a sum fits the word, the operations do on types what
they do on descriptors. So a type whose sums fit stays a descriptor however it is put together
(`TypeTerm.nested?_eq`), and all types on the way to one are in normal form exactly if none of its
arrays vanishes in a sum (`TypeTerm.isNormal_types_iff`).
-/

namespace JvmSignature

/-! ## Sums of words -/

/-- A sum is zero if it is just too great for the word. -/
theorem add_eq_zero_iff_toNat {m : UInt64} (h : m ≠ 0) (n : UInt64) :
    m + n = 0 ↔ m.toNat + n.toNat = UInt64.size := by
  have hm := m.toNat_lt
  have hn := n.toNat_lt
  have hpos : m.toNat ≠ 0 := fun hzero => h (UInt64.toNat_inj.mp hzero)
  rw [← UInt64.toNat_inj, UInt64.toNat_add, UInt64.toNat_zero, UInt64.size]
  omega

theorem toNat_add_eq_iff (m n : UInt64) :
    (m + n).toNat = m.toNat + n.toNat ↔ m.toNat + n.toNat < UInt64.size := by
  have hm := m.toNat_lt
  have hn := n.toNat_lt
  rw [UInt64.toNat_add, UInt64.size]
  omega

/-- Zero and a word always fit. -/
theorem toNat_zero_add_ne (n : UInt64) : (0 : UInt64).toNat + n.toNat ≠ UInt64.size := by
  rw [UInt64.toNat_zero, Nat.zero_add]
  exact Nat.ne_of_lt n.toNat_lt_size

/-- Only zero has no predecessor. -/
theorem toNat_sub_one {n : UInt64} (h : n ≠ 0) : (n - 1).toNat + 1 = n.toNat := by
  have hn := n.toNat_lt
  have hpos : n.toNat ≠ 0 := fun hzero => h (UInt64.toNat_inj.mp hzero)
  rw [UInt64.toNat_sub, UInt64.toNat_one]
  omega

namespace NestedType

variable {t c : NestedType}

/-! ## Arrays -/

@[simp] theorem wrap_zero (t : NestedType) : t.wrap 0 = t := if_pos rfl

theorem wrap_plain (e : Element) {n : UInt64} (h : n ≠ 0) :
    (plain e).wrap n = array (plain e) n := if_neg h

@[simp] theorem wrap_array (t : NestedType) (depth n : UInt64) :
    (array t depth).wrap n = array t (depth + n) := by
  by_cases h : n = 0
  · rw [h, wrap_zero, UInt64.add_zero]
  · exact if_neg h

theorem depth_wrap (t : NestedType) (n : UInt64) : (t.wrap n).depth = t.depth + n := by
  cases t with
  | plain e =>
    by_cases h : n = 0
    · rw [h, wrap_zero, UInt64.add_zero]
    · rw [wrap_plain e h, depth, depth, UInt64.zero_add]
  | array t depth => rw [wrap_array, NestedType.depth, NestedType.depth]

theorem inner_wrap (t : NestedType) (n : UInt64) : (t.wrap n).inner = t.inner := by
  cases t with
  | plain e =>
    by_cases h : n = 0
    · rw [h, wrap_zero]
    · rw [wrap_plain e h, inner, inner]
  | array t depth => rw [wrap_array, inner, inner]

/-- Dimensions that are added in two steps are added in one, but for an element that is an array
without dimension after the second. -/
theorem wrap_wrap_iff (t : NestedType) (m n : UInt64) :
    (t.wrap m).wrap n = t.wrap (m + n) ↔
      t.isArray = true ∨ m.toNat + n.toNat ≠ UInt64.size := by
  cases t with
  | array t depth => simp [isArray, UInt64.add_assoc]
  | plain e =>
    have harray : (plain e).isArray = false := rfl
    rw [harray, or_iff_right Bool.false_ne_true]
    by_cases hm : m = 0
    · rw [hm, wrap_zero, UInt64.zero_add]
      exact iff_of_true rfl (toNat_zero_add_ne n)
    · rw [wrap_plain e hm, wrap_array, Ne, ← add_eq_zero_iff_toNat hm]
      by_cases hsum : m + n = 0
      · rw [hsum, wrap_zero]
        exact iff_of_false NestedType.noConfusion (not_not_intro rfl)
      · exact iff_of_true (wrap_plain e hsum).symm hsum

/-! ## The normal form -/

/-- Whether a type has at least one dimension where it is an array, and is an array of no array. -/
def IsNormal : NestedType → Prop
  | plain _ => True
  | array t depth => depth ≠ 0 ∧ ∃ e, t = plain e

/-- In normal form only an array has dimensions. -/
theorem IsNormal.isArray_iff (h : t.IsNormal) : t.isArray = true ↔ t.depth ≠ 0 := by
  cases t with
  | plain e => simp [isArray, depth]
  | array t depth => exact iff_of_true rfl h.1

theorem isNormal_wrap_plain (e : Element) (n : UInt64) : ((plain e).wrap n).IsNormal := by
  by_cases h : n = 0
  · rw [h, wrap_zero]
    trivial
  · rw [wrap_plain e h]
    exact ⟨h, e, rfl⟩

/-- **An array loses its normal form where the sum of its dimensions is just too great.** -/
theorem IsNormal.wrap_iff (h : t.IsNormal) (n : UInt64) :
    (t.wrap n).IsNormal ↔ t.depth.toNat + n.toNat ≠ UInt64.size := by
  cases t with
  | plain e => exact iff_of_true (isNormal_wrap_plain e n) (toNat_zero_add_ne n)
  | array t depth =>
    obtain ⟨hdepth, helement⟩ := h
    rw [wrap_array, NestedType.depth, Ne, ← add_eq_zero_iff_toNat hdepth]
    exact ⟨fun hnormal => hnormal.1, fun hsum => ⟨hsum, helement⟩⟩

/-- Taking a component off an array in normal form takes off one of its dimensions. -/
theorem IsNormal.component? (h : t.IsNormal) (hc : t.component? = some c) :
    c.IsNormal ∧ c.depth.toNat + 1 = t.depth.toNat := by
  cases t with
  | plain e => cases hc
  | array t depth =>
    obtain ⟨hdepth, e, rfl⟩ := h
    cases hc
    refine ⟨isNormal_wrap_plain e _, ?_⟩
    rw [depth_wrap, NestedType.depth, NestedType.depth, UInt64.zero_add]
    exact toNat_sub_one hdepth

/-- The components of an array that was wrapped have one dimension less, unless the array that this
leaves has none, or no array was made. -/
theorem IsNormal.component?_wrap_iff (h : t.IsNormal) (m : UInt64) :
    (t.wrap (m + 1)).component? = some (t.wrap m) ↔
      t.depth.toNat + m.toNat ≠ UInt64.size ∧
        (t.depth = 0 → m.toNat + 1 ≠ UInt64.size) := by
  cases t with
  | plain e =>
    have hsum : (plain e).depth.toNat + m.toNat ≠ UInt64.size := toNat_zero_add_ne m
    have hsucc : m + 1 = 0 ↔ m.toNat + 1 = UInt64.size := by
      rw [UInt64.add_comm, add_eq_zero_iff_toNat (by decide), UInt64.toNat_one, Nat.add_comm]
    rw [and_iff_right hsum, Ne, ← hsucc]
    by_cases h : m + 1 = 0
    · rw [h, wrap_zero]
      refine iff_of_false (fun hc => ?_) fun hne => hne rfl rfl
      cases hc
    · refine iff_of_true ?_ fun _ => h
      rw [wrap_plain e h, NestedType.component?, UInt64.add_sub_cancel]
  | array t depth =>
    obtain ⟨hdepth, e, rfl⟩ := h
    have hcomponent : depth + (m + 1) - 1 = depth + m := by
      rw [← UInt64.add_assoc, UInt64.add_sub_cancel]
    have hnone : (array (plain e) depth).depth = 0 → m.toNat + 1 ≠ UInt64.size := fun hz =>
      absurd hz hdepth
    rw [and_iff_left hnone, wrap_array, wrap_array, NestedType.component?, hcomponent,
      NestedType.depth, Option.some_inj, Ne, ← add_eq_zero_iff_toNat hdepth]
    by_cases hsum : depth + m = 0
    · rw [hsum, wrap_zero]
      exact iff_of_false NestedType.noConfusion (not_not_intro rfl)
    · exact iff_of_true (wrap_plain e hsum) hsum

/-! ## Descriptors -/

open Descriptor (nested)

variable {d : Descriptor}

theorem isNormal_nested (d : Descriptor) : d.nested.IsNormal := isNormal_wrap_plain _ _

theorem depth_nested (h : d.depth < UInt64.size) : d.nested.depth.toNat = d.depth := by
  rw [nested, depth_wrap, depth, UInt64.zero_add, UInt64.toNat_ofNat_of_lt' h]

theorem inner_nested (d : Descriptor) : d.nested.inner = plain d.element := inner_wrap _ _

/-- A descriptor whose dimensions a word can count is an element, or an array of one. -/
theorem nested_eq (h : d.depth < UInt64.size) :
    d.nested = if d.depth = 0 then plain d.element
      else array (plain d.element) (UInt64.ofNat d.depth) := by
  have hiff : UInt64.ofNat d.depth = 0 ↔ d.depth = 0 := by
    rw [← UInt64.toNat_inj, UInt64.toNat_ofNat_of_lt' h, UInt64.toNat_zero]
  simp only [nested, wrap, hiff]

theorem descriptor?_nested (h : d.depth < UInt64.size) : d.nested.descriptor? = some d := by
  obtain ⟨e, n⟩ := d
  rw [nested_eq h]
  split
  · next hn => rw [descriptor?, show n = 0 from hn]
  · rw [descriptor?, UInt64.toNat_ofNat_of_lt' h]

theorem nested_inj {d' : Descriptor} (h : d.depth < UInt64.size) (h' : d'.depth < UInt64.size)
    (heq : d.nested = d'.nested) : d = d' :=
  Option.some.inj ((descriptor?_nested h).symm.trans (heq ▸ descriptor?_nested h'))

/-- **The types in normal form are the descriptors**, one for each. -/
theorem isNormal_iff :
    t.IsNormal ↔ ∃! d : Descriptor, d.depth < UInt64.size ∧ d.nested = t := by
  constructor
  · intro h
    have hexists : ∃ d : Descriptor, d.depth < UInt64.size ∧ d.nested = t := by
      cases t with
      | plain e => exact ⟨⟨e, 0⟩, UInt64.toNat_lt_size 0, wrap_zero _⟩
      | array t depth =>
        obtain ⟨hdepth, e, rfl⟩ := h
        refine ⟨⟨e, depth.toNat⟩, depth.toNat_lt_size, ?_⟩
        rw [nested, UInt64.ofNat_toNat, wrap_plain e hdepth]
    obtain ⟨d, hd, rfl⟩ := hexists
    exact ⟨d, ⟨hd, rfl⟩, fun d' ⟨hd', heq⟩ => nested_inj hd' hd heq⟩
  · rintro ⟨d, ⟨-, rfl⟩, -⟩
    exact isNormal_nested d

/-- As long as the sum fits, wrapping a descriptor is adding its dimensions. -/
theorem wrap_nested {n : UInt64} (h : d.depth + n.toNat < UInt64.size) :
    d.nested.wrap n = (d.array n.toNat).nested := by
  have hd : (UInt64.ofNat d.depth).toNat = d.depth :=
    UInt64.toNat_ofNat_of_lt' (Nat.lt_of_le_of_lt (Nat.le_add_right _ _) h)
  rw [nested, nested, Descriptor.array, UInt64.ofNat_add, UInt64.ofNat_toNat, wrap_wrap_iff, hd]
  exact Or.inr (Nat.ne_of_lt h)

theorem component?_nested (h : d.depth < UInt64.size) :
    d.nested.component? = d.component?.map nested := by
  obtain ⟨e, n⟩ := d
  cases n with
  | zero => rw [nested_eq h]; rfl
  | succ n =>
    have hn : UInt64.ofNat (n + 1) - 1 = UInt64.ofNat n := by
      rw [UInt64.ofNat_add]
      exact UInt64.add_sub_cancel _ _
    rw [nested_eq h, if_neg (Nat.succ_ne_zero n), component?, hn]
    rfl

theorem nested_primitive (p : Primitive) :
    (Descriptor.primitive p).nested = plain (.primitive p) := wrap_zero _

theorem nested_eq_void_iff (h : d.depth < UInt64.size) :
    d.nested = void ↔ d = .primitive .void := by
  rw [void, ← nested_primitive]
  exact ⟨nested_inj h (by decide), fun hd => hd ▸ rfl⟩

/-- A type with elements other than `void` is neither `void` nor an array of it. -/
theorem nested_ne_void (h : d.element ≠ .primitive .void) :
    d.nested ≠ void ∧ ∀ n, d.nested ≠ array void n := by
  have hinner : d.nested.inner ≠ void := by
    rw [inner_nested, void, Ne, plain.injEq]
    exact h
  refine ⟨fun hv => hinner ?_, fun n hv => hinner ?_⟩
  · rw [hv]
    rfl
  · rw [hv]
    rfl

/-! ## What descriptors say of themselves -/

theorem isArray_nested (h : d.depth < UInt64.size) : d.nested.isArray = d.isArray := by
  obtain ⟨e, n⟩ := d
  rw [nested_eq h]
  cases n <;> rfl

theorem isPrimitive_nested (h : d.depth < UInt64.size) : d.nested.isPrimitive = d.isPrimitive := by
  obtain ⟨e, n⟩ := d
  rw [nested_eq h]
  cases n with
  | zero => cases e <;> rfl
  | succ n => cases e <;> rfl

theorem name_nested (h : d.depth < UInt64.size) : d.nested.name = d.name := by
  obtain ⟨e, n⟩ := d
  rw [nested_eq h, Descriptor.name]
  split
  · next hn =>
    rw [show n = 0 from hn]
    exact (List.append_nil _).symm
  · rw [name, name, UInt64.toNat_ofNat_of_lt' h]

theorem binaryName_nested (h : d.depth < UInt64.size) : d.nested.binaryName = d.binaryName := by
  obtain ⟨e, n⟩ := d
  rw [nested_eq h, Descriptor.binaryName]
  split
  · rfl
  · cases e with
    | primitive p =>
      rw [binaryName, UInt64.toNat_ofNat_of_lt' h]
      rfl
    | reference name =>
      rw [binaryName, UInt64.toNat_ofNat_of_lt' h, List.append_assoc]
      · rfl
      · exact fun p hp => by cases hp

end NestedType

/-! ## Putting types together -/

/-- A term over the operations on types: arrays and components, nested in any way over elements. -/
inductive TypeTerm where
  | element (e : Element)
  | array (t : TypeTerm) (n : UInt64)
  | component (t : TypeTerm)

namespace TypeTerm

/-- The type that a term stands for; the component of a type that is no array is none. -/
def type? : TypeTerm → Option Descriptor
  | element e => some ⟨e, 0⟩
  | array t n => t.type?.map (·.array n.toNat)
  | component t => t.type?.bind Descriptor.component?

/-- The same, computed on types that might be nested. -/
def nested? : TypeTerm → Option NestedType
  | element e => some (.plain e)
  | array t n => t.nested?.map (·.wrap n)
  | component t => t.nested?.bind NestedType.component?

/-- The types of a term and of all its parts. -/
def types : TypeTerm → List NestedType
  | element e => [.plain e]
  | array t n => (array t n).nested?.toList ++ t.types
  | component t => (component t).nested?.toList ++ t.types

/-- Whether no array of a term loses its dimensions in a sum that is just too great. -/
def NeverVanishes : TypeTerm → Prop
  | element _ => True
  | array t n => t.NeverVanishes ∧
      ∀ u, t.nested? = some u → u.depth.toNat + n.toNat ≠ UInt64.size
  | component t => t.NeverVanishes

/-- Whether a word can count the dimensions of the type of a term and of all its parts. -/
def Fits : TypeTerm → Prop
  | element _ => True
  | array t n => t.Fits ∧ ∀ d, t.type? = some d → d.depth + n.toNat < UInt64.size
  | component t => t.Fits

theorem mem_types_of_nested? {t : TypeTerm} {u : NestedType} (h : t.nested? = some u) :
    u ∈ t.types := by
  cases t with
  | element e => exact Option.some.inj h ▸ List.mem_singleton_self _
  | array t n => exact List.mem_append_left _ (Option.mem_toList.mpr h)
  | component t => exact List.mem_append_left _ (Option.mem_toList.mpr h)

/-- **All types on the way are in normal form exactly if no array vanishes in a sum.** -/
theorem isNormal_types_iff (t : TypeTerm) : (∀ u ∈ t.types, u.IsNormal) ↔ t.NeverVanishes := by
  induction t with
  | element e => exact iff_of_true (fun u hu => List.mem_singleton.mp hu ▸ trivial) trivial
  | array t n ih =>
    rw [types, List.forall_mem_append, NeverVanishes, ← ih, and_comm]
    refine and_congr_right fun hparts => ?_
    simp only [Option.mem_toList, nested?, Option.map_eq_some_iff]
    constructor
    · intro h u hu
      exact ((hparts u (mem_types_of_nested? hu)).wrap_iff n).mp (h _ ⟨u, hu, rfl⟩)
    · rintro h - ⟨u, hu, rfl⟩
      exact ((hparts u (mem_types_of_nested? hu)).wrap_iff n).mpr (h u hu)
  | component t ih =>
    rw [types, List.forall_mem_append, NeverVanishes, ← ih]
    refine and_iff_right_of_imp fun hparts c hc => ?_
    obtain ⟨u, hu, hcomponent⟩ := Option.bind_eq_some_iff.mp (Option.mem_toList.mp hc)
    exact ((hparts u (mem_types_of_nested? hu)).component? hcomponent).1

/-! ## Sums that fit -/

theorem Fits.depth_lt {t : TypeTerm} (h : t.Fits) {d : Descriptor} (hd : t.type? = some d) :
    d.depth < UInt64.size := by
  induction t generalizing d with
  | element e =>
    cases hd
    exact UInt64.toNat_lt_size 0
  | array t n ih =>
    obtain ⟨d', hd', rfl⟩ := Option.map_eq_some_iff.mp hd
    exact h.2 d' hd'
  | component t ih =>
    obtain ⟨⟨e, depth⟩, hd', hcomponent⟩ := Option.bind_eq_some_iff.mp hd
    cases depth with
    | zero => cases hcomponent
    | succ depth =>
      cases hcomponent
      exact Nat.lt_of_succ_lt (ih h hd')

/-- **A type whose sums fit is a descriptor however it is put together.** -/
theorem nested?_eq {t : TypeTerm} (h : t.Fits) : t.nested? = t.type?.map Descriptor.nested := by
  induction t with
  | element e => exact congrArg some (NestedType.wrap_zero _).symm
  | array t n ih =>
    rw [nested?, ih h.1, type?]
    cases hd : t.type? with
    | none => rfl
    | some d => exact congrArg some (NestedType.wrap_nested (h.2 d hd))
  | component t ih =>
    rw [nested?, ih h, type?]
    cases hd : t.type? with
    | none => rfl
    | some d => exact NestedType.component?_nested (Fits.depth_lt (t := t) h hd)

theorem Fits.neverVanishes {t : TypeTerm} (h : t.Fits) : t.NeverVanishes := by
  induction t with
  | element e => trivial
  | array t n ih =>
    refine ⟨ih h.1, fun u hu => ?_⟩
    rw [nested?_eq h.1, Option.map_eq_some_iff] at hu
    obtain ⟨d, hd, rfl⟩ := hu
    rw [NestedType.depth_nested (h.1.depth_lt hd)]
    exact Nat.ne_of_lt (h.2 d hd)
  | component t ih => exact ih h

/-- All the dimensions that a term adds, one time after the other. -/
def dimensions : TypeTerm → Nat
  | element _ => 0
  | array t n => t.dimensions + n.toNat
  | component t => t.dimensions

/-- No type on the way to that of a term has more dimensions than the term adds. -/
theorem depth_le_dimensions {t : TypeTerm} {d : Descriptor} (h : t.type? = some d) :
    d.depth ≤ t.dimensions := by
  induction t generalizing d with
  | element e =>
    cases h
    exact Nat.le_refl 0
  | array t n ih =>
    obtain ⟨d, hd, rfl⟩ := Option.map_eq_some_iff.mp h
    exact Nat.add_le_add_right (ih hd) n.toNat
  | component t ih =>
    obtain ⟨⟨e, depth⟩, hd, hcomponent⟩ := Option.bind_eq_some_iff.mp h
    cases depth with
    | zero => cases hcomponent
    | succ depth =>
      cases hcomponent
      exact Nat.le_of_succ_le (ih hd)

/-- Where all dimensions that a term adds can be counted, each sum fits. -/
theorem fits_of_dimensions {t : TypeTerm} (h : t.dimensions < UInt64.size) : t.Fits := by
  induction t with
  | element e => trivial
  | array t n ih =>
    refine ⟨ih (Nat.lt_of_le_of_lt (Nat.le_add_right _ _) h), fun d hd => ?_⟩
    exact Nat.lt_of_le_of_lt (Nat.add_le_add_right (depth_le_dimensions hd) _) h
  | component t ih => exact ih h

end TypeTerm

end JvmSignature
