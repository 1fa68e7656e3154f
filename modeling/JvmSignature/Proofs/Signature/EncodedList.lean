import JvmSignature.Proofs.Signature.TypeList

/-!
# Lists of encoded types

An encoding takes everything between `L` and `;` for the name of a class, so a list of encodings says
which types are meant, whatever their classes are called. Nevertheless they are not looked up as they
stand: each is turned into its binary name, and the class table reads the name.

A class by itself whose name is not plain is lost on the way. `Lint;` is resolved to the primitive
type, `La[];` to an array of the class `a`, and `La b;` to nothing, though the table may hold the
classes `int`, `a[]` and `a b`. No other type is: a list is resolved to what it encodes, over all
tables, exactly when there is no such class in it (`resolveList_encoded_iff`).
-/

namespace JvmSignature.ClassTable

variable {t : ClassTable} {d e : Descriptor} {ds types : List Descriptor} {s : Text}

/-! ## One type -/

/-- What an encoded type is resolved to. -/
inductive FoundAs (t : ClassTable) : Descriptor → Descriptor → Prop
  /-- The type itself, if its class is there. -/
  | itself {d : Descriptor} (hkey : d.IsKeyed) (h : t.HoldsClass d) : FoundAs t d d
  /-- What the name of a class is read as, where that is not this class. -/
  | misread {d e : Descriptor} (hkey : ¬ d.IsKeyed)
      (hread : Descriptor.ofTypeName d.binaryName = .ok e) (hknown : t.knows e = true) :
      FoundAs t d e

theorem foundAs_iff_of_isKeyed (hkey : d.IsKeyed) : t.FoundAs d e ↔ t.HoldsClass d ∧ d = e := by
  constructor
  · rintro (⟨-, h⟩ | ⟨hnot, -, -⟩)
    · exact ⟨h, rfl⟩
    · exact absurd hkey hnot
  · rintro ⟨h, rfl⟩
    exact .itself hkey h

theorem foundAs_iff_of_not_isKeyed (hkey : ¬ d.IsKeyed) :
    t.FoundAs d e ↔ t.resolve? d.binaryName = some e := by
  rw [resolve?_eq_some_iff]
  constructor
  · rintro (⟨h, -⟩ | ⟨-, hread, hknown⟩)
    · exact absurd h hkey
    · exact ⟨hread, hknown⟩
  · rintro ⟨hread, hknown⟩
    exact .misread hkey hread hknown

/-- **A type that is misread is never found as itself.** -/
theorem FoundAs.eq_iff_isKeyed (h : t.FoundAs d e) : e = d ↔ d.IsKeyed := by
  cases h with
  | itself hkey _ => exact iff_of_true rfl hkey
  | misread hkey hread _ =>
    refine iff_of_false ?_ hkey
    rintro rfl
    exact hkey (Descriptor.isKeyed_of_ofTypeName hread).2

/-- **An encoded type is resolved to what it is found as.** -/
theorem resolveDescriptor_eq_ok_iff (h : d.IsNormal) (hfield : d.IsField) :
    t.typeSystem.resolveDescriptor d = .ok e ↔ t.FoundAs d e := by
  by_cases hkey : d.IsKeyed
  · rw [resolveDescriptor_eq_answer h hkey hfield.not_void, foundAs_iff_of_isKeyed hkey,
      ← knows_iff_holdsClass hfield.not_void, answer]
    split
    · next hk => simp [hk]
    · next hk => simp [hk]
  · have hreference : ¬ d.isPrimitive = true := by
      obtain ⟨name, rfl, -⟩ := Descriptor.not_isKeyed_iff.mp hkey
      exact Bool.false_ne_true
    have hasked : t.typeSystem.resolve? d.binaryName = t.resolve? d.binaryName := rfl
    rw [foundAs_iff_of_not_isKeyed hkey, TypeSystem.resolveDescriptor, if_neg hreference, hasked]
    cases t.resolve? d.binaryName <;> simp

/-! ## Lists -/

/-- **What is read as a list of encodings is resolved type by type.** -/
theorem resolveList_eq_ok_iff (h : Descriptor.ofList s.trim = .ok ds) :
    t.typeSystem.resolveList s = .ok types ↔ List.Forall₂ t.FoundAs ds types := by
  rw [TypeSystem.resolveList, h]
  show ds.mapM t.typeSystem.resolveDescriptor = .ok types ↔ _
  rw [mapM_eq_ok_iff]
  refine forall₂_congr fun d hd e => ?_
  obtain ⟨hnormal, hfield⟩ := Descriptor.isNormal_of_ofList h hd
  exact resolveDescriptor_eq_ok_iff hnormal hfield

/-- Whether a text is resolved to the types that it encodes: exactly when their classes are there,
and to no others. -/
def ResolvesAsEncoded (t : ClassTable) (s : Text) (ds : List Descriptor) : Prop :=
  ((∃ types, t.typeSystem.resolveList s = .ok types) ↔ ∀ d ∈ ds, t.HoldsClass d) ∧
    ∀ types, t.typeSystem.resolveList s = .ok types → types = ds

/-- A table that holds the classes of some types. -/
def holdingAll (ds : List Descriptor) : ClassTable :=
  ⟨ds.map fun d => ⟨d.element.name, 0, none, [], []⟩⟩

theorem holdsClass_holdingAll (hd : d ∈ ds) : (holdingAll ds).HoldsClass d := by
  intro name hname
  rw [contains, stub?, List.find?_isSome]
  refine ⟨_, List.mem_map_of_mem hd, ?_⟩
  rw [hname]
  exact decide_eq_true rfl

theorem forall₂_foundAs_iff (hkey : ∀ d ∈ ds, d.IsKeyed) :
    List.Forall₂ t.FoundAs ds types ↔ (∀ d ∈ ds, t.HoldsClass d) ∧ ds = types := by
  rw [forall₂_congr fun d hd e => foundAs_iff_of_isKeyed (hkey d hd), List.forall₂_and_left,
    List.forall₂_eq_eq_eq]

/--
**Which lists are resolved to what they encode.** Of a text that is read as a list of encodings:

1. It is resolved to the encoded types, over all tables, exactly when each of them is read from its
   binary name.
2. Over every table it is resolved type by type, each to itself or to what its name is read as.
3. The latter is never the type itself.
-/
theorem resolveList_encoded_iff (h : Descriptor.ofList s.trim = .ok ds) :
    ((∀ t : ClassTable, t.ResolvesAsEncoded s ds) ↔ ∀ d ∈ ds, d.IsKeyed) ∧
    (∀ (t : ClassTable) (types : List Descriptor),
      t.typeSystem.resolveList s = .ok types ↔ List.Forall₂ t.FoundAs ds types) ∧
    ∀ (t : ClassTable) (d e : Descriptor), t.FoundAs d e → (e = d ↔ d.IsKeyed) := by
  refine ⟨⟨fun hall => ?_, fun hkey t => ?_⟩, fun t types => resolveList_eq_ok_iff h,
    fun t d e => FoundAs.eq_iff_isKeyed⟩
  · -- A table that holds all classes of the list resolves it, and to what it encodes.
    obtain ⟨hsome, hencoded⟩ := hall (holdingAll ds)
    obtain ⟨types, hresolved⟩ := hsome.mpr fun d hd => holdsClass_holdingAll hd
    obtain rfl := hencoded types hresolved
    intro d hd
    exact (List.forall₂_same.mp ((resolveList_eq_ok_iff h).mp hresolved) d hd).eq_iff_isKeyed.mp rfl
  · have hresolved : ∀ types, t.typeSystem.resolveList s = .ok types ↔
        (∀ d ∈ ds, t.HoldsClass d) ∧ ds = types := fun types =>
      (resolveList_eq_ok_iff h).trans (forall₂_foundAs_iff hkey)
    refine ⟨?_, fun types htypes => ((hresolved types).mp htypes).2.symm⟩
    simp only [hresolved, exists_and_left, exists_eq', and_true]

/-- The encoding of a class called like a primitive type is resolved to the primitive type, over a
table that holds the class. -/
theorem resolveList_encoded_iff_keyword :
    let t : ClassTable := ⟨[⟨"int".toList, 1, none, [], []⟩]⟩
    let ds : List Descriptor := [⟨.reference "int".toList, 0⟩]
    Descriptor.ofList (Text.trim "Lint;".toList) = .ok ds ∧ (∀ d ∈ ds, t.HoldsClass d) ∧
      t.typeSystem.resolveList "Lint;".toList = .ok [.primitive .int] ∧
      ¬ ∀ t : ClassTable, t.ResolvesAsEncoded "Lint;".toList ds := by
  intro t ds
  have hlist : Descriptor.ofList (Text.trim "Lint;".toList) = .ok ds :=
    Descriptor.ofRun_eq_ok_iff.mpr ⟨by decide, by decide⟩
  have hheld : ∀ d ∈ ds, t.HoldsClass d := by
    rintro d hd name hname
    obtain rfl := List.mem_singleton.mp hd
    cases hname
    rfl
  have hkey : ¬ (⟨.reference "int".toList, 0⟩ : Descriptor).IsKeyed := by decide
  have hread : Descriptor.ofTypeName "int".toList = .ok (.primitive .int) :=
    Descriptor.ofTypeName_name (d := .primitive .int) ⟨Or.inr (by decide), by decide⟩ trivial
  obtain ⟨hall, hresolved, -⟩ := resolveList_encoded_iff hlist
  refine ⟨hlist, hheld, (hresolved t _).mpr (.cons (.misread hkey hread rfl) .nil), fun h => ?_⟩
  exact hkey (hall.mp h _ List.mem_cons_self)

end JvmSignature.ClassTable
