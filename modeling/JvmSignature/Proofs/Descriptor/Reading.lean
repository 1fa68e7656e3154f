import JvmSignature.Descriptor.Encoded
import JvmSignature.Proofs.Text.Cuts

/-!
# What the readers of encodings accept

A small grammar says which texts encode a type: brackets for the dimensions, then a letter, or a name
between `L` and `;`. The reader of one type takes such a text off the start, and nothing else
(`read?_eq_some_iff_isEncoding`).

The texts of the grammar are those that spell the encoding of the type, with slashes or dots
(`isEncoding_iff`). So each reader answers a type exactly for the spellings of its encoding, if the
type is one that it may answer at all: no text spells two types, and the readers of a type, of a run
of types and of a method descriptor differ only in the types they allow.
-/

namespace JvmSignature

open Text (dotted dotted_eq_append_iff dotted_eq_cons_iff mem_dotted_iff)

/-! ## Types that have an encoding -/

/-- Whether an element is a field type that its encoding spells: no `void`, and a class name that
ends at the first semicolon. -/
def Element.IsField : Element → Prop
  | .primitive p => p ≠ .void
  | .reference name => name ≠ [] ∧ ';' ∉ name

instance : DecidablePred Element.IsField
  | .primitive p => inferInstanceAs (Decidable (p ≠ .void))
  | .reference name => inferInstanceAs (Decidable (name ≠ [] ∧ ';' ∉ name))

namespace Descriptor

/-- Whether a type is a field type that its encoding spells. -/
def IsField (d : Descriptor) : Prop := d.element.IsField

instance : DecidablePred IsField := fun d => inferInstanceAs (Decidable d.element.IsField)

/-- No field type is made of `void`. -/
theorem IsField.not_void {d : Descriptor} (h : d.IsField) : d.element ≠ .primitive .void := by
  intro he
  rw [IsField, he] at h
  exact h rfl

/-- Whether a type can be returned: a field type, or `void`. -/
def IsReturn (d : Descriptor) : Prop := d = .primitive .void ∨ d.IsField

instance : DecidablePred IsReturn := fun d => inferInstanceAs (Decidable (_ ∨ d.IsField))

end Descriptor

/-- Whether a method descriptor is one that its encoding spells. -/
structure MethodDescriptor.IsReadable (m : MethodDescriptor) : Prop where
  params : ∀ d ∈ m.params, d.IsField
  /-- The parameters end at the first closing parenthesis. -/
  noClosing : ∀ d ∈ m.params, ')' ∉ d.encode
  returnType : m.returnType.IsReturn

/-! ## The grammar of one type -/

/-- No letter of a primitive type is one of the characters that start other texts. -/
theorem Primitive.code_ne (p : Primitive) :
    p.code ≠ '/' ∧ p.code ≠ '.' ∧ p.code ≠ 'L' ∧ p.code ≠ '[' ∧ p.code ≠ '(' ∧ p.code ≠ ')' := by
  cases p <;> decide

/-- What starts an encoded element. -/
theorem Element.encode_ne_bracket (e : Element) :
    ∃ c rest, e.encode = c :: rest ∧ c ≠ '/' ∧ c ≠ '.' ∧ c ≠ '[' ∧ c ≠ '(' := by
  cases e with
  | primitive p =>
    obtain ⟨h1, h2, -, h4, h5, -⟩ := p.code_ne
    exact ⟨p.code, [], rfl, h1, h2, h4, h5⟩
  | reference n => exact ⟨'L', n ++ [';'], rfl, by decide, by decide, by decide, by decide⟩

/-- Whether a text encodes an element: the letter of a primitive type other than `void`, or between
`L` and `;` a name, whose slashes are read as dots. -/
inductive Element.IsEncoding : Text → Element → Prop
  | primitive {p : Primitive} (h : p ≠ .void) : IsEncoding [p.code] (.primitive p)
  | reference {name : Text} (hne : name ≠ []) (hsemi : ';' ∉ name) :
      IsEncoding ('L' :: (name ++ [';'])) (.ofName name)

/-- The grammar gives an element the texts that spell its encoding with slashes or dots. -/
theorem Element.isEncoding_iff {s : Text} {e : Element} :
    IsEncoding s e ↔ s.dotted = e.encode ∧ e.IsField := by
  constructor
  · intro h
    cases h with
    | @primitive p hp =>
      obtain ⟨hslash, hdot, -⟩ := p.code_ne
      exact ⟨(dotted_eq_cons_iff hslash hdot).mpr ⟨[], rfl, rfl⟩, hp⟩
    | @reference name hne hsemi =>
      refine ⟨by simp [dotted, encode, ofName], ?_, ?_⟩
      · simpa [dotted] using hne
      · rwa [Text.mem_dotted_iff (by decide) (by decide)]
  · rintro ⟨hs, hfield⟩
    cases e with
    | primitive p =>
      obtain ⟨hslash, hdot, -⟩ := p.code_ne
      obtain ⟨t, rfl, ht⟩ := (dotted_eq_cons_iff hslash hdot).mp hs
      obtain rfl : t = [] := List.map_eq_nil_iff.mp ht
      exact .primitive hfield
    | reference n =>
      obtain ⟨t, rfl, ht⟩ := (dotted_eq_cons_iff (by decide) (by decide)).mp hs
      obtain ⟨name, last, rfl, rfl, hlast⟩ := dotted_eq_append_iff.mp ht
      obtain ⟨last', rfl, hnil⟩ := (dotted_eq_cons_iff (by decide) (by decide)).mp hlast
      obtain rfl : last' = [] := List.map_eq_nil_iff.mp hnil
      refine .reference ?_ ?_
      · rintro rfl
        exact hfield.1 rfl
      · rw [← Text.mem_dotted_iff (by decide) (by decide)]
        exact hfield.2

namespace Descriptor

theorem dotted_eq_dimensions_iff {s : Text} {n : Nat} :
    dotted s = List.replicate n '[' ↔ s = List.replicate n '[' := by
  induction n generalizing s with
  | zero => exact List.map_eq_nil_iff
  | succ n ih =>
    rw [List.replicate_succ, dotted_eq_cons_iff (by decide) (by decide)]
    constructor
    · rintro ⟨t, rfl, ht⟩
      rw [ih.mp ht]
    · rintro rfl
      exact ⟨_, rfl, ih.mpr rfl⟩

/-- Whether a text encodes a type: a `[` for each dimension, then the element. -/
def IsEncoding (s : Text) (d : Descriptor) : Prop :=
  ∃ element, s = List.replicate d.depth '[' ++ element ∧ Element.IsEncoding element d.element

/-- The grammar gives a type the texts that spell its encoding with slashes or dots. -/
theorem isEncoding_iff {s : Text} {d : Descriptor} :
    IsEncoding s d ↔ s.dotted = d.encode ∧ d.IsField := by
  constructor
  · rintro ⟨element, rfl, helement⟩
    obtain ⟨he, hfield⟩ := Element.isEncoding_iff.mp helement
    exact ⟨by rw [Text.dotted_append, dotted_eq_dimensions_iff.mpr rfl, he, encode], hfield⟩
  · rintro ⟨hs, hfield⟩
    obtain ⟨dims, element, rfl, hdims, helement⟩ := dotted_eq_append_iff.mp hs
    obtain rfl := dotted_eq_dimensions_iff.mp hdims
    exact ⟨element, rfl, Element.isEncoding_iff.mpr ⟨helement, hfield⟩⟩

end Descriptor

/-! ## One type -/

theorem Element.read?_class (s : Text) :
    Element.read? ('L' :: s) =
      match s.cutAt? ';' with
      | none => none
      | some (name, rest) => if name = [] then none else some (.ofName name, rest) := rfl

theorem Element.read?_of_ne {c : Char} (h : c ≠ 'L') (s : Text) :
    Element.read? (c :: s) =
      match Primitive.ofCode? c with
      | none => none
      | some .void => none
      | some p => some (.primitive p, s) :=
  Element.read?.eq_3 c s h

/-- **The reader of an element takes a text of the grammar off the start, and nothing else.** -/
theorem Element.read?_eq_some_iff_isEncoding {s rest : Text} {e : Element} :
    Element.read? s = some (e, rest) ↔ ∃ enc, s = enc ++ rest ∧ IsEncoding enc e := by
  constructor
  · intro h
    cases s with
    | nil => cases h
    | cons c s =>
      by_cases hc : c = 'L'
      · rw [hc, Element.read?_class] at h
        split at h
        · cases h
        · next name r hcut =>
          split at h
          · cases h
          · next hne =>
            cases h
            obtain ⟨rfl, hsemi⟩ := Text.cutAt?_eq_some_iff.mp hcut
            exact ⟨'L' :: (name ++ [';']), by simp [hc], .reference hne hsemi⟩
      · rw [Element.read?_of_ne hc] at h
        split at h
        · cases h
        · cases h
        · next p hvoid hp =>
          cases h
          obtain rfl := Primitive.ofCode?_eq_some_iff.mp hp
          exact ⟨[p.code], rfl, .primitive hvoid⟩
  · rintro ⟨enc, rfl, henc⟩
    cases henc with
    | @primitive p hp =>
      obtain ⟨-, -, hL, -⟩ := p.code_ne
      rw [List.singleton_append, Element.read?_of_ne hL, Primitive.ofCode?_code]
      cases p with
      | void => exact absurd rfl hp
      | _ => rfl
    | @reference name hne hsemi =>
      have hcut : Text.cutAt? ';' (name ++ ';' :: rest) = some (name, rest) :=
        Text.cutAt?_eq_some_iff.mpr ⟨rfl, hsemi⟩
      rw [List.cons_append, List.append_assoc, List.singleton_append, Element.read?_class, hcut]
      exact if_neg hne

namespace Descriptor

/-- Every text is a number of `[` and what comes behind them. -/
theorem exists_dimensions (s : Text) :
    ∃ n t, s = List.replicate n '[' ++ t ∧ ∀ c, t.head? = some c → c ≠ '[' := by
  induction s with
  | nil => exact ⟨0, [], rfl, nofun⟩
  | cons c s ih =>
    by_cases hc : c = '['
    · obtain ⟨n, t, hs, ht⟩ := ih
      exact ⟨n + 1, t, by rw [hc, hs, List.replicate_succ, List.cons_append], ht⟩
    · refine ⟨0, c :: s, rfl, ?_⟩
      rintro d ⟨⟩
      exact hc

theorem read?_dimensions (n : Nat) {t : Text} (h : ∀ c, t.head? = some c → c ≠ '[') :
    read? (List.replicate n '[' ++ t) =
      (Element.read? t).map fun (e, rest) => (⟨e, n⟩, rest) := by
  have hall : ∀ c ∈ List.replicate n '[', (c == '[') = true := fun c hc => by
    simpa using List.eq_of_mem_replicate hc
  have hstop : t.takeWhile (· == '[') = [] ∧ t.dropWhile (· == '[') = t := by
    cases t with
    | nil => exact ⟨rfl, rfl⟩
    | cons c t => simp [h c rfl]
  rw [read?, List.takeWhile_append_of_pos hall, List.dropWhile_append_of_pos hall, hstop.1,
    hstop.2, List.append_nil, List.length_replicate]
  cases Element.read? t with
  | none => rfl
  | some found => rfl

/-- **The reader of a type takes a text of the grammar off the start, and nothing else.** -/
theorem read?_eq_some_iff_isEncoding {s rest : Text} {d : Descriptor} :
    read? s = some (d, rest) ↔ ∃ enc, s = enc ++ rest ∧ IsEncoding enc d := by
  constructor
  · intro h
    obtain ⟨n, t, rfl, ht⟩ := exists_dimensions s
    rw [read?_dimensions n ht, Option.map_eq_some_iff] at h
    obtain ⟨⟨e, r⟩, he, hd⟩ := h
    cases hd
    obtain ⟨enc, rfl, henc⟩ := Element.read?_eq_some_iff_isEncoding.mp he
    exact ⟨List.replicate n '[' ++ enc, (List.append_assoc ..).symm, enc, rfl, henc⟩
  · rintro ⟨enc, rfl, element, rfl, helement⟩
    obtain ⟨e, n⟩ := d
    have hhead : ∀ c, (element ++ rest).head? = some c → c ≠ '[' := by
      cases helement with
      | @primitive p _ =>
        rintro c ⟨⟩
        exact p.code_ne.2.2.2.1
      | reference _ _ =>
        rintro c ⟨⟩
        decide
    rw [List.append_assoc, read?_dimensions n hhead,
      Element.read?_eq_some_iff_isEncoding.mpr ⟨element, rfl, helement⟩]
    rfl

/-- The reader of a type accepts its encoding, with slashes or dots, and nothing else. -/
theorem read?_eq_some_iff {s rest : Text} {d : Descriptor} :
    read? s = some (d, rest) ↔ ∃ enc, s = enc ++ rest ∧ enc.dotted = d.encode ∧ d.IsField := by
  simp only [read?_eq_some_iff_isEncoding, isEncoding_iff]

/-! ## Lengths -/

theorem depth_le_length_encode (d : Descriptor) : d.depth ≤ d.encode.length := by
  rw [encode, List.length_append, List.length_replicate]
  exact Nat.le_add_right _ _

theorem length_encode_le_flatMap {d : Descriptor} {ds : List Descriptor} (h : d ∈ ds) :
    d.encode.length ≤ (ds.flatMap encode).length := by
  rw [List.flatMap_def]
  exact (List.sublist_flatten_of_mem (List.mem_map_of_mem h)).length_le

/-! ## Whole texts -/

/-- **A text is read as a type exactly when it is the encoding of that type.** -/
theorem ofField_eq_ok_iff {s : Text} {d : Descriptor} :
    ofField s = .ok d ↔ s.dotted = d.encode ∧ d.IsField := by
  constructor
  · intro h
    unfold ofField at h
    split at h
    · next d' hr =>
      cases h
      obtain ⟨enc, rfl, henc, hfield⟩ := read?_eq_some_iff.mp hr
      exact ⟨by rwa [List.append_nil], hfield⟩
    · cases h
  · rintro ⟨hs, hfield⟩
    have hr : read? s = some (d, []) :=
      read?_eq_some_iff.mpr ⟨s, (List.append_nil s).symm, hs, hfield⟩
    rw [ofField, hr]

theorem ofRun_cons (c : Char) (cs : Text) :
    ofRun (c :: cs) =
      match read? (c :: cs) with
      | none => .error (.invalidDescriptor (c :: cs))
      | some (d, rest) => (ofRun rest).map (d :: ·) := by
  rw [ofRun]
  split
  · next h => rw [h]
  · next d rest h => rw [h]

/-- **A text is read as a run of types exactly when it is made of their encodings.** -/
theorem ofRun_eq_ok_iff {s : Text} {ds : List Descriptor} :
    ofRun s = .ok ds ↔ s.dotted = ds.flatMap encode ∧ ∀ d ∈ ds, d.IsField := by
  constructor
  · intro h
    fun_induction ofRun s generalizing ds with
    | case1 =>
      cases h
      exact ⟨rfl, nofun⟩
    | case2 c cs hr => cases h
    | case3 c cs d rest hr ih =>
      obtain ⟨enc, henc, hdot, hfield⟩ := read?_eq_some_iff.mp hr
      cases hrest : ofRun rest with
      | error e =>
        rw [hrest] at h
        cases h
      | ok more =>
        rw [hrest] at h
        cases h
        obtain ⟨hmore, hfields⟩ := ih hrest
        refine ⟨?_, ?_⟩
        · rw [henc, Text.dotted_append, hdot, hmore, List.flatMap_cons]
        · exact List.forall_mem_cons.mpr ⟨hfield, hfields⟩
  · induction ds generalizing s with
    | nil =>
      rintro ⟨hs, -⟩
      obtain rfl : s = [] := List.map_eq_nil_iff.mp hs
      rw [ofRun]
    | cons d ds ih =>
      rintro ⟨hs, hfields⟩
      rw [List.flatMap_cons] at hs
      obtain ⟨enc, rest, rfl, henc, hrest⟩ := dotted_eq_append_iff.mp hs
      have hr : read? (enc ++ rest) = some (d, rest) :=
        read?_eq_some_iff.mpr ⟨enc, rfl, henc, hfields d List.mem_cons_self⟩
      have hmore := ih ⟨hrest, fun e he => hfields e (List.mem_cons_of_mem _ he)⟩
      cases hcons : enc ++ rest with
      | nil =>
        rw [hcons] at hr
        cases hr
      | cons c cs =>
        rw [hcons] at hr
        rw [ofRun_cons, hr]
        simp only [hmore, Except.map]

theorem unparenthesized_parens (s : Text) : Text.unparenthesized ('(' :: (s ++ [')'])) = s := by
  rw [Text.unparenthesized, Text.between?_eq_some_iff.mpr rfl, Option.getD_some]

theorem unparenthesized_eq_self {s : Text} (h : ')' ∉ s) : Text.unparenthesized s = s := by
  unfold Text.unparenthesized
  cases hb : Text.between? '(' ')' s with
  | none => rfl
  | some r =>
    rw [Text.between?_eq_some_iff.mp hb] at h
    exact absurd (by simp) h

theorem length_unparenthesized_le (s : Text) : s.unparenthesized.length ≤ s.length := by
  unfold Text.unparenthesized
  cases hb : Text.between? '(' ')' s with
  | none => exact Nat.le_refl _
  | some r =>
    rw [Text.between?_eq_some_iff.mp hb, Option.getD_some]
    simp
    omega

/-- A list in parentheses is a run. -/
theorem ofList_parens (s : Text) : ofList ('(' :: (s ++ [')'])) = ofRun s := by
  rw [ofList, unparenthesized_parens]

end Descriptor

/-! ## Method descriptors -/

namespace MethodDescriptor

/-- `void` is written by its letter only. -/
theorem dotted_eq_encode_void_iff {s : Text} :
    s.dotted = (Descriptor.primitive .void).encode ↔ s = ['V'] := by
  constructor
  · intro hs
    obtain ⟨t, rfl, ht⟩ := (dotted_eq_cons_iff (by decide) (by decide)).mp hs
    obtain rfl : t = [] := List.map_eq_nil_iff.mp ht
    rfl
  · rintro rfl
    rfl

theorem returnOf_eq_ok_iff {whole s : Text} {d : Descriptor} :
    returnOf whole s = .ok d ↔ s.dotted = d.encode ∧ d.IsReturn := by
  by_cases hv : s = ['V']
  · subst hv
    constructor
    · intro h
      cases h
      exact ⟨rfl, Or.inl rfl⟩
    · rintro ⟨hd, rfl | hfield⟩
      · rfl
      · -- No field type is encoded by the letter of `void`.
        have := Descriptor.ofField_eq_ok_iff.mpr ⟨hd, hfield⟩
        cases this
  · have hfield : returnOf whole s = .ok d ↔ Descriptor.ofField s = .ok d := by
      cases s with
      | nil => exact ⟨nofun, nofun⟩
      | cons c s =>
        rw [returnOf]
        · exact nofun
        · exact hv
    rw [hfield, Descriptor.ofField_eq_ok_iff]
    constructor
    · rintro ⟨hs, hf⟩
      exact ⟨hs, Or.inr hf⟩
    · rintro ⟨hs, rfl | hf⟩
      · exact absurd (dotted_eq_encode_void_iff.mp hs) hv
      · exact ⟨hs, hf⟩

/-- A method descriptor is read in two parts: the run of parameter types up to the first closing
parenthesis, and the return type behind it. -/
theorem ofText_eq_ok_iff_parts {s : Text} {m : MethodDescriptor} :
    ofText s = .ok m ↔ ∃ params result, s = '(' :: (params ++ ')' :: result) ∧ ')' ∉ params ∧
      Descriptor.ofRun params = .ok m.params ∧ returnOf s result = .ok m.returnType := by
  constructor
  · intro h
    unfold ofText at h
    split at h
    · next body =>
      split at h
      · cases h
      · next params result hcut =>
        obtain ⟨rfl, hclosing⟩ := Text.cutAt?_eq_some_iff.mp hcut
        rw [Descriptor.ofList, Descriptor.unparenthesized_eq_self hclosing] at h
        cases hparams : Descriptor.ofRun params with
        | error e =>
          rw [hparams] at h
          cases h
        | ok types =>
          cases hreturn : returnOf ('(' :: (params ++ ')' :: result)) result with
          | error e =>
            rw [hparams, hreturn] at h
            cases h
          | ok returnType =>
            rw [hparams, hreturn] at h
            cases h
            exact ⟨params, result, rfl, hclosing, hparams, hreturn⟩
    · cases h
  · rintro ⟨params, result, rfl, hclosing, hparams, hreturn⟩
    rw [ofText, Text.cutAt?_eq_some_iff.mpr ⟨rfl, hclosing⟩]
    simp only
    rw [Descriptor.ofList, Descriptor.unparenthesized_eq_self hclosing, hparams, hreturn]
    rfl

/-- **A text is read as a method descriptor exactly when it is the encoding of that descriptor.** -/
theorem ofText_eq_ok_iff {s : Text} {m : MethodDescriptor} :
    ofText s = .ok m ↔ s.dotted = m.encode ∧ m.IsReadable := by
  rw [ofText_eq_ok_iff_parts]
  have hmem : ∀ params : Text, params.dotted = m.params.flatMap Descriptor.encode →
      (')' ∈ params ↔ ∃ d ∈ m.params, ')' ∈ d.encode) := by
    intro params hparams
    rw [← mem_dotted_iff (by decide) (by decide), hparams, List.mem_flatMap]
  constructor
  · rintro ⟨params, result, rfl, hclosing, hparams, hreturn⟩
    obtain ⟨hp, hfields⟩ := Descriptor.ofRun_eq_ok_iff.mp hparams
    obtain ⟨hr, hret⟩ := returnOf_eq_ok_iff.mp hreturn
    refine ⟨?_, hfields, fun d hd hm => ?_, hret⟩
    · simp [encode, dotted, ← hp, ← hr]
    · exact hclosing ((hmem params hp).mpr ⟨d, hd, hm⟩)
  · rintro ⟨hs, hm⟩
    obtain ⟨t, rfl, ht⟩ := (dotted_eq_cons_iff (by decide) (by decide)).mp hs
    obtain ⟨params, t', rfl, hparams, ht'⟩ := dotted_eq_append_iff.mp ht
    obtain ⟨result, rfl, hresult⟩ := (dotted_eq_cons_iff (by decide) (by decide)).mp ht'
    refine ⟨params, result, rfl, fun hc => ?_, Descriptor.ofRun_eq_ok_iff.mpr ⟨hparams, hm.params⟩,
      returnOf_eq_ok_iff.mpr ⟨hresult, hm.returnType⟩⟩
    obtain ⟨d, hd, hc⟩ := (hmem params hparams).mp hc
    exact hm.noClosing d hd hc

end MethodDescriptor

end JvmSignature
