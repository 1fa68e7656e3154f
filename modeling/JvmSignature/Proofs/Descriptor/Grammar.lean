import JvmSignature.Proofs.Descriptor.Reading
import Mathlib.Data.List.Forall2

/-!
# The grammar of encoded types

The grammar of one type extends to texts with several: a list of types is a row of encodings, in
parentheses or not, and a method descriptor such a row in parentheses and a return type.

The readers accept the texts of the grammar and no others (`accepts_iff_isEncoding`,
`accepts_iff_isMadeOf`). No text is put together in two ways, because no encoding is the beginning
of another one (`IsEncoding.eq_of_append`), and what a reader answers is encoded as what it has read.
-/

namespace JvmSignature

open Text (dotted dotted_eq_append_iff)

namespace Descriptor

/-! ## One type -/

namespace IsEncoding

variable {s s' rest rest' : Text} {d d' : Descriptor}

theorem read?_append (h : IsEncoding s d) (rest : Text) : read? (s ++ rest) = some (d, rest) :=
  read?_eq_some_iff_isEncoding.mpr ⟨s, rfl, h⟩

theorem ne_nil (h : IsEncoding s d) : s ≠ [] := by
  rintro rfl
  have hread := h.read?_append []
  cases hread

/-- **No encoding is the beginning of another one.** -/
theorem eq_of_append (h : IsEncoding s d) (h' : IsEncoding s' d') (he : s ++ rest = s' ++ rest') :
    s = s' ∧ rest = rest' ∧ d = d' := by
  have hread := h.read?_append rest
  rw [he, h'.read?_append rest'] at hread
  cases hread
  exact ⟨List.append_cancel_right he, rfl, rfl⟩

/-- An encoded type is not `void` and no array of `void`. -/
theorem ne_void (h : IsEncoding s d) : d.element ≠ .primitive .void :=
  (isEncoding_iff.mp h).2.not_void

end IsEncoding

/-! ## Rows of types -/

/-- Whether texts encode types, one by one. -/
def AreEncodings (pieces : List Text) (ds : List Descriptor) : Prop :=
  List.Forall₂ IsEncoding pieces ds

/-- A text is a row of encodings exactly when it spells the encodings one after the other. -/
theorem exists_areEncodings_iff {s : Text} {ds : List Descriptor} :
    (∃ pieces, s = pieces.flatten ∧ AreEncodings pieces ds) ↔
      s.dotted = ds.flatMap encode ∧ ∀ d ∈ ds, d.IsField := by
  constructor
  · rintro ⟨pieces, rfl, h⟩
    induction h with
    | nil => exact ⟨rfl, nofun⟩
    | cons hfirst _ ih =>
      obtain ⟨hs, hfield⟩ := isEncoding_iff.mp hfirst
      refine ⟨?_, List.forall_mem_cons.mpr ⟨hfield, ih.2⟩⟩
      rw [List.flatten_cons, Text.dotted_append, hs, ih.1, List.flatMap_cons]
  · induction ds generalizing s with
    | nil =>
      rintro ⟨hs, -⟩
      exact ⟨[], List.map_eq_nil_iff.mp hs, .nil⟩
    | cons d ds ih =>
      rintro ⟨hs, hfields⟩
      obtain ⟨hfield, hrest⟩ := List.forall_mem_cons.mp hfields
      rw [List.flatMap_cons] at hs
      obtain ⟨first, more, rfl, hfirst, hmore⟩ := dotted_eq_append_iff.mp hs
      obtain ⟨pieces, rfl, hpieces⟩ := ih ⟨hmore, hrest⟩
      exact ⟨first :: pieces, rfl, .cons (isEncoding_iff.mpr ⟨hfirst, hfield⟩) hpieces⟩

theorem ofRun_eq_ok_iff_exists {s : Text} {ds : List Descriptor} :
    ofRun s = .ok ds ↔ ∃ pieces, s = pieces.flatten ∧ AreEncodings pieces ds := by
  rw [exists_areEncodings_iff, ofRun_eq_ok_iff]

namespace AreEncodings

variable {pieces pieces' : List Text} {ds ds' : List Descriptor}

/-- **A text is a row of encodings in one way only.** -/
theorem eq_of_flatten (h : AreEncodings pieces ds) (h' : AreEncodings pieces' ds')
    (he : pieces.flatten = pieces'.flatten) : pieces = pieces' ∧ ds = ds' := by
  induction h generalizing pieces' ds' with
  | nil =>
    cases h' with
    | nil => exact ⟨rfl, rfl⟩
    | cons hfirst _ =>
      rw [List.flatten_nil, List.flatten_cons] at he
      exact absurd (List.append_eq_nil_iff.mp he.symm).1 hfirst.ne_nil
  | cons hfirst _ ih =>
    cases h' with
    | nil =>
      rw [List.flatten_nil, List.flatten_cons] at he
      exact absurd (List.append_eq_nil_iff.mp he).1 hfirst.ne_nil
    | cons hfirst' hrest' =>
      rw [List.flatten_cons, List.flatten_cons] at he
      obtain ⟨rfl, hflat, rfl⟩ := hfirst.eq_of_append hfirst' he
      obtain ⟨rfl, rfl⟩ := ih hrest' hflat
      exact ⟨rfl, rfl⟩

theorem ne_void (h : AreEncodings pieces ds) : ∀ d ∈ ds, d.element ≠ .primitive .void := by
  induction h with
  | nil => exact nofun
  | cons hfirst _ ih => exact List.forall_mem_cons.mpr ⟨hfirst.ne_void, ih⟩

theorem flatMap_encode (h : AreEncodings pieces ds) : ds.flatMap encode = dotted pieces.flatten :=
  (exists_areEncodings_iff.mp ⟨pieces, rfl, h⟩).1.symm

end AreEncodings

/-- Whether a text is another one without one pair of enclosing parentheses, where there is one. -/
def IsListBody (s body : Text) : Prop :=
  s = '(' :: (body ++ [')']) ∨ (body = s ∧ ∀ inner, s ≠ '(' :: (inner ++ [')']))

theorem isListBody_iff {s body : Text} : IsListBody s body ↔ body = s.unparenthesized := by
  constructor
  · rintro (rfl | ⟨rfl, hnone⟩)
    · rw [unparenthesized_parens]
    · have hbetween : Text.between? '(' ')' body = none :=
        Option.eq_none_iff_forall_ne_some.mpr fun inner hb =>
          hnone inner (Text.between?_eq_some_iff.mp hb)
      rw [Text.unparenthesized, hbetween, Option.getD_none]
  · rintro rfl
    unfold Text.unparenthesized
    cases hb : Text.between? '(' ')' s with
    | none =>
      refine Or.inr ⟨rfl, fun inner hs => ?_⟩
      rw [Text.between?_eq_some_iff.mpr hs] at hb
      cases hb
    | some inner => exact Or.inl (Text.between?_eq_some_iff.mp hb)

/--
**The readers of types and of lists accept the grammar and nothing else.**

1. A text is read as the type that it encodes.
2. A text is read as a list where its body is a row of encodings, as the types that these encode.
3. A row of encodings is one in one way only.
4. A type that is read is encoded as the text, with dots for slashes, and has no `void` in it.
5. So is a list of types that is read, and the body of the text.
-/
theorem accepts_iff_isEncoding :
    (∀ s d, ofField s = .ok d ↔ IsEncoding s d) ∧
    (∀ s ds, ofList s = .ok ds ↔
      ∃ body pieces, IsListBody s body ∧ body = pieces.flatten ∧ AreEncodings pieces ds) ∧
    (∀ pieces pieces' ds ds', AreEncodings pieces ds → AreEncodings pieces' ds' →
      pieces.flatten = pieces'.flatten → pieces = pieces') ∧
    (∀ s d, ofField s = .ok d → d.encode = s.dotted ∧ d.element ≠ .primitive .void) ∧
    ∀ s body ds, ofList s = .ok ds → IsListBody s body →
      ds.flatMap encode = body.dotted ∧ ∀ d ∈ ds, d.element ≠ .primitive .void := by
  have hfield : ∀ s d, ofField s = .ok d ↔ IsEncoding s d := fun s d => by
    rw [ofField_eq_ok_iff, isEncoding_iff]
  have hlist : ∀ s ds, ofList s = .ok ds ↔
      ∃ body pieces, IsListBody s body ∧ body = pieces.flatten ∧ AreEncodings pieces ds := by
    intro s ds
    rw [ofList, ofRun_eq_ok_iff_exists]
    simp only [isListBody_iff, exists_and_left, exists_eq_left]
  refine ⟨hfield, hlist, fun _ _ _ _ h h' he => (h.eq_of_flatten h' he).1, ?_, ?_⟩
  · intro s d h
    have hd := (hfield s d).mp h
    exact ⟨(isEncoding_iff.mp hd).1.symm, hd.ne_void⟩
  · intro s body ds h hbody
    obtain ⟨body', pieces, hbody', rfl, hpieces⟩ := (hlist s ds).mp h
    rw [isListBody_iff] at hbody hbody'
    rw [hbody, ← hbody']
    exact ⟨hpieces.flatMap_encode, hpieces.ne_void⟩

/-- Two types between parentheses, which are no type by themselves. -/
theorem accepts_iff_isEncoding_parens :
    let types : List Descriptor := [.primitive .int, (Descriptor.reference "a.B".toList).array 2]
    let body := "I[[La/B;".toList
    let s := '(' :: (body ++ [')'])
    ofList s = .ok types ∧ IsListBody s body ∧ types.flatMap encode = "I[[La.B;".toList ∧
      ∀ d, ¬ IsEncoding body d := by
  intro types body s
  have hread : ofList s = .ok types := by
    rw [ofList_parens]
    exact ofRun_eq_ok_iff.mpr ⟨by decide, by decide⟩
  have hbody : IsListBody s body := Or.inl rfl
  have hfield : ofField body = .error (.invalidDescriptor body) := by rfl
  obtain ⟨haccepts, -, -, -, hencode⟩ := accepts_iff_isEncoding
  refine ⟨hread, hbody, (hencode s body types hread hbody).1, fun d h => ?_⟩
  rw [← haccepts, hfield] at h
  cases h

end Descriptor

/-! ## Method descriptors -/

namespace MethodDescriptor

/-- Whether a text encodes what a method returns: `V` for `void`, or a type. -/
def IsReturnEncoding (s : Text) (d : Descriptor) : Prop :=
  (s = ['V'] ∧ d = .primitive .void) ∨ Descriptor.IsEncoding s d

theorem isReturnEncoding_iff {s : Text} {d : Descriptor} :
    IsReturnEncoding s d ↔ s.dotted = d.encode ∧ d.IsReturn := by
  rw [IsReturnEncoding, Descriptor.isEncoding_iff, ← dotted_eq_encode_void_iff]
  constructor
  · rintro (⟨hs, rfl⟩ | ⟨hs, hfield⟩)
    · exact ⟨hs, Or.inl rfl⟩
    · exact ⟨hs, Or.inr hfield⟩
  · rintro ⟨hs, rfl | hfield⟩
    · exact Or.inl ⟨hs, rfl⟩
    · exact Or.inr ⟨hs, hfield⟩

/-- Whether a method descriptor is made of these encodings of its parameter types, in which no class
name holds a closing parenthesis, and of this encoding of its return type. -/
structure IsMadeOf (m : MethodDescriptor) (pieces : List Text) (result : Text) : Prop where
  params : Descriptor.AreEncodings pieces m.params
  noClosing : ∀ piece ∈ pieces, ')' ∉ piece
  returnType : IsReturnEncoding result m.returnType

namespace IsMadeOf

variable {m m' : MethodDescriptor} {pieces pieces' : List Text} {result result' : Text}

theorem closing_not_mem (h : m.IsMadeOf pieces result) : ')' ∉ pieces.flatten := by
  intro hm
  obtain ⟨piece, hp, hc⟩ := List.mem_flatten.mp hm
  exact h.noClosing piece hp hc

/-- **A text is a method descriptor in one way only**: the parameters end at the first closing
parenthesis, and they are a row of encodings in one way. -/
theorem unique (h : m.IsMadeOf pieces result) (h' : m'.IsMadeOf pieces' result')
    (he : pieces.flatten ++ ')' :: result = pieces'.flatten ++ ')' :: result') :
    pieces = pieces' ∧ result = result' := by
  have hcut : Text.cutAt? ')' (pieces.flatten ++ ')' :: result) = some (pieces.flatten, result) :=
    Text.cutAt?_eq_some_iff.mpr ⟨rfl, h.closing_not_mem⟩
  rw [he, Text.cutAt?_eq_some_iff.mpr ⟨rfl, h'.closing_not_mem⟩] at hcut
  obtain ⟨hflat, hresult⟩ := Prod.mk.inj (Option.some.inj hcut)
  exact ⟨(h.params.eq_of_flatten h'.params hflat.symm).1, hresult.symm⟩

/-- No parameter is `void`, and neither a parameter nor the return type is an array of `void`. -/
theorem ne_void (h : m.IsMadeOf pieces result) :
    (∀ d ∈ m.params, d.element ≠ .primitive .void) ∧
      (m.returnType.depth = 0 ∨ m.returnType.element ≠ .primitive .void) := by
  refine ⟨h.params.ne_void, ?_⟩
  rcases h.returnType with ⟨-, hvoid⟩ | hfield
  · exact Or.inl (by rw [hvoid]; rfl)
  · exact Or.inr hfield.ne_void

end IsMadeOf

theorem ofText_eq_ok_iff_exists {s : Text} {m : MethodDescriptor} :
    ofText s = .ok m ↔
      ∃ pieces result, s = '(' :: (pieces.flatten ++ ')' :: result) ∧ m.IsMadeOf pieces result := by
  simp only [ofText_eq_ok_iff_parts, Descriptor.ofRun_eq_ok_iff_exists, returnOf_eq_ok_iff,
    ← isReturnEncoding_iff]
  constructor
  · rintro ⟨-, result, rfl, hclosing, ⟨pieces, rfl, hpieces⟩, hresult⟩
    refine ⟨pieces, result, rfl, hpieces, fun piece hp hc => ?_, hresult⟩
    exact hclosing (List.mem_flatten.mpr ⟨piece, hp, hc⟩)
  · rintro ⟨pieces, result, rfl, h⟩
    exact ⟨pieces.flatten, result, rfl, h.closing_not_mem, ⟨pieces, rfl, h.params⟩, h.returnType⟩

/--
**The reader of method descriptors accepts the grammar and nothing else.**

1. A text is read as the method descriptor whose encodings it is made of.
2. It is made of them in one way only.
3. One whose class names are written with dots is read back from its encoding, and from its encoding
   with slashes.
4. Nothing that is read has `void` among its parameters, or an array of `void` in it.
-/
theorem accepts_iff_isMadeOf :
    (∀ s m, ofText s = .ok m ↔
      ∃ pieces result, s = '(' :: (pieces.flatten ++ ')' :: result) ∧ m.IsMadeOf pieces result) ∧
    (∀ m m' pieces pieces' result result', IsMadeOf m pieces result → IsMadeOf m' pieces' result' →
      pieces.flatten ++ ')' :: result = pieces'.flatten ++ ')' :: result' →
      pieces = pieces' ∧ result = result') ∧
    (∀ m, m.IsReadable → '/' ∉ m.encode →
      ofText m.encode = .ok m ∧ ofText m.encode.slashed = .ok m) ∧
    ∀ s m, ofText s = .ok m →
      (∀ d ∈ m.params, d.element ≠ .primitive .void) ∧
        (m.returnType.depth = 0 ∨ m.returnType.element ≠ .primitive .void) := by
  refine ⟨fun s m => ofText_eq_ok_iff_exists, fun _ _ _ _ _ _ h h' he => h.unique h' he, ?_, ?_⟩
  · intro m hm hslash
    have hdots : m.encode.dotted = m.encode := Text.dotted_eq_self hslash
    refine ⟨ofText_eq_ok_iff.mpr ⟨hdots, hm⟩, ofText_eq_ok_iff.mpr ⟨?_, hm⟩⟩
    rw [Text.dotted_slashed, hdots]
  · intro s m h
    obtain ⟨pieces, result, -, hmade⟩ := ofText_eq_ok_iff_exists.mp h
    exact hmade.ne_void

/-- A method descriptor with a parenthesis in a class name, which only a return type may have. -/
theorem accepts_iff_isMadeOf_parenthesis :
    let m : MethodDescriptor :=
      ⟨[.primitive .int, (Descriptor.reference "a.B".toList).array 1],
        Descriptor.reference "a.C)".toList⟩
    let s := "(I[La/B;)La/C);".toList
    m.IsReadable ∧ '/' ∉ m.encode ∧ ofText s = .ok m ∧
      (∃ pieces result, s = '(' :: (pieces.flatten ++ ')' :: result) ∧ m.IsMadeOf pieces result) ∧
      ∀ d ∈ m.params, d.element ≠ .primitive .void := by
  intro m s
  have hm : m.IsReadable := ⟨by decide, by decide, by decide⟩
  have hslash : '/' ∉ m.encode := by decide
  obtain ⟨haccepts, -, hwritten, hvoid⟩ := accepts_iff_isMadeOf
  have hread : ofText s = .ok m := (hwritten m hm hslash).2
  exact ⟨hm, hslash, hread, (haccepts s m).mp hread, (hvoid s m hread).1⟩

end MethodDescriptor

end JvmSignature
