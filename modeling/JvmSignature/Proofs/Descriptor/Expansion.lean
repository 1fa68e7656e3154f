import JvmSignature.Descriptor.Expansion
import JvmSignature.Descriptor.Name
import JvmSignature.Proofs.Descriptor.Reading
import JvmSignature.Proofs.Signature.WrittenType

/-!
# Expansion and the readers of encodings

Expansion never fails: it passes over brackets and semicolons, and guesses from the first and the
last character. The readers of encodings are strict. What they accept spells the encoding of a type
(`ofField_eq_ok_iff`), and the encoding of any type expands to its name, whatever its class is
called (`expand_encode`). Any other text is kept exactly when nothing in it looks like an encoding: no
bracket or semicolon starts it, it is not the letter of a primitive type, and it does not stand
between `L` and `;` (`expand_eq_self_iff`). Turning slashes into dots changes no guess, so it is the
same to turn them before the expansion or after it (`dotted_expand`).
-/

namespace JvmSignature

open Text (dotted dotted_eq_self)

/-- No keyword has a slash. -/
theorem Primitive.dotted_name (p : Primitive) : dotted p.name = p.name := by
  cases p <;> decide

/-! ## Encodings -/

namespace Descriptor

theorem expandElement_encode (e : Element) : expandElement e.encode = e.name := by
  cases e with
  | primitive p =>
    rw [Element.encode, expandElement, Primitive.ofCode?_code]
    rfl
  | reference n =>
    -- Even an empty name stands before a semicolon, so `L` never stands alone.
    rw [Element.encode, List.cons_append, expandElement, if_pos ⟨rfl, List.getLast?_concat⟩,
      List.dropLast_concat, Element.name]
    exact List.append_ne_nil_of_right_ne_nil n (List.cons_ne_nil _ _)

/-- Expansion tells the dimensions of an encoding from the element. -/
theorem marks_encode (d : Descriptor) :
    d.encode.takeWhile isExpansionMark = List.replicate d.depth '[' ∧
      d.encode.dropWhile isExpansionMark = d.element.encode := by
  have hmarks : ∀ c ∈ List.replicate d.depth '[', isExpansionMark c = true := by
    intro c hc
    rw [List.eq_of_mem_replicate hc]
    rfl
  have hstop : d.element.encode.takeWhile isExpansionMark = [] ∧
      d.element.encode.dropWhile isExpansionMark = d.element.encode := by
    cases d.element with
    | primitive p => cases p <;> exact ⟨rfl, rfl⟩
    | reference n => exact ⟨rfl, rfl⟩
  rw [encode, List.takeWhile_append_of_pos hmarks, List.dropWhile_append_of_pos hmarks, hstop.1,
    hstop.2, List.append_nil]
  exact ⟨rfl, rfl⟩

/-- **The encoding of a type expands to its name.** -/
theorem expand_encode (d : Descriptor) : expand d.encode = d.name := by
  obtain ⟨htake, hdrop⟩ := marks_encode d
  rw [expand, htake, hdrop, expandElement_encode, List.count_replicate_self, name]

/-! ## Texts that are kept -/

/-- Whether a text looks like no encoding. -/
structure LooksExpanded (s : Text) : Prop where
  start : ∀ c, s.head? = some c → isExpansionMark c = false
  notLetter : ∀ p : Primitive, s ≠ [p.code]
  notClass : ∀ name, s ≠ 'L' :: (name ++ [';'])

/-- An element is kept, or it is the letter of a primitive type or a class between `L` and `;`. -/
theorem expandElement_cases (s : Text) :
    expandElement s = s ∨ (∃ p : Primitive, s = [p.code] ∧ expandElement s = p.name) ∨
      ∃ name, s = 'L' :: (name ++ [';']) ∧ expandElement s = name := by
  match s with
  | [] => exact Or.inl rfl
  | [c] =>
    rw [expandElement]
    split
    · next p hp =>
      obtain rfl := Primitive.ofCode?_eq_some_iff.mp hp
      exact Or.inr (Or.inl ⟨p, rfl, rfl⟩)
    · exact Or.inl rfl
  | c :: d :: rest =>
    have helement : expandElement (c :: d :: rest) =
        if c = 'L' ∧ (d :: rest).getLast? = some ';' then (d :: rest).dropLast
        else c :: d :: rest := rfl
    rw [helement]
    split
    · next h =>
      obtain ⟨rfl, hlast⟩ := h
      obtain ⟨name, hname⟩ := List.getLast?_eq_some_iff.mp hlast
      rw [hname, List.dropLast_concat]
      exact Or.inr (Or.inr ⟨name, rfl, rfl⟩)
    · exact Or.inl rfl

/-- What no mark starts is expanded like an element. -/
theorem expand_eq_expandElement {s : Text}
    (h : ∀ c, s.head? = some c → isExpansionMark c = false) : expand s = expandElement s := by
  cases s with
  | nil => rfl
  | cons c s =>
    have hc : ¬ isExpansionMark c = true := by simp [h c rfl]
    rw [expand, List.takeWhile_cons_of_neg hc, List.dropWhile_cons_of_neg hc]
    exact List.append_nil _

theorem LooksExpanded.expand_eq_self {s : Text} (h : LooksExpanded s) : expand s = s := by
  rw [expand_eq_expandElement h.start]
  rcases expandElement_cases s with hkept | ⟨p, hs, -⟩ | ⟨name, hs, -⟩
  · exact hkept
  · exact absurd hs (h.notLetter p)
  · exact absurd hs (h.notClass name)

/-- No keyword looks like an encoding. -/
theorem looksExpanded_keyword (p : Primitive) : LooksExpanded p.name where
  start := by
    intro c hc
    cases p <;> exact Option.some.inj hc ▸ rfl
  notLetter := by
    intro q hq
    cases p <;> exact absurd (List.cons.inj hq).2 (List.cons_ne_nil _ _)
  notClass := by
    intro name hname
    have hL : p.name.head? = some 'L' := by rw [hname]; rfl
    cases p <;> exact absurd hL (by decide)

/-- **What a mark starts is not kept**: its brackets come to stand at the end. -/
theorem start_of_expand_eq_self {s : Text} (h : expand s = s) {c : Char} (hc : s.head? = some c) :
    isExpansionMark c = false := by
  refine Bool.eq_false_iff.mpr fun hmark => ?_
  have hcut := List.takeWhile_append_dropWhile (p := isExpansionMark) (l := s)
  have hstop := List.head?_dropWhile_not isExpansionMark s
  have hmarks : ∀ x ∈ s.takeWhile isExpansionMark, isExpansionMark x = true :=
    List.all_eq_true.mp List.all_takeWhile
  unfold expand at h
  generalize s.takeWhile isExpansionMark = marks at h hcut hmarks
  generalize s.dropWhile isExpansionMark = rest at h hcut hstop
  generalize marks.count '[' = n at h
  rcases expandElement_cases rest with hkept | ⟨p, -, hname⟩ | ⟨name, hrest, hname⟩
  · rw [hkept] at h
    cases rest with
    | cons d rest =>
      rw [← h] at hc
      obtain rfl : d = c := Option.some.inj hc
      exact absurd hmark (by simpa using hstop)
    | nil =>
      rw [List.append_nil] at hcut
      cases n with
      | zero =>
        rw [← h] at hc
        cases hc
      | succ n =>
        have hbracket : ']' ∈ marks := by
          rw [hcut, ← h]
          simp [brackets]
        exact absurd (hmarks _ hbracket) (by decide)
  · have hkeyword : (p.name ++ brackets n).head? = p.name.head? := by
      cases p <;> rfl
    rw [hname] at h
    rw [← h, hkeyword] at hc
    exact absurd hmark (by simp [(looksExpanded_keyword p).start c hc])
  · -- The text ends with the semicolon, which no brackets end with.
    rw [hname, ← hcut, hrest] at h
    cases n with
    | zero =>
      have hlength := congrArg List.length h
      simp only [brackets, List.length_append, List.length_cons, List.length_nil] at hlength
      omega
    | succ n =>
      have hleft : name ++ brackets (n + 1) = name ++ brackets n ++ ['['] ++ [']'] := by
        simp [brackets_concat]
      have hright : marks ++ 'L' :: (name ++ [';']) = marks ++ 'L' :: name ++ [';'] := by simp
      have hlast := congrArg List.getLast? h
      rw [hleft, hright, List.getLast?_concat, List.getLast?_concat] at hlast
      cases hlast

/-- **Expansion keeps exactly the texts that look like no encoding.** -/
theorem expand_eq_self_iff {s : Text} : expand s = s ↔ LooksExpanded s := by
  constructor
  · intro h
    have hstart : ∀ c, s.head? = some c → isExpansionMark c = false :=
      fun _ hc => start_of_expand_eq_self h hc
    rw [expand_eq_expandElement hstart] at h
    refine ⟨hstart, ?_, ?_⟩
    · rintro p rfl
      rw [← Element.encode, expandElement_encode] at h
      cases p <;> exact absurd h (by decide)
    · rintro name rfl
      have hname : expandElement ('L' :: (name ++ [';'])) = name :=
        expandElement_encode (.reference name)
      have hlength := congrArg List.length (hname.symm.trans h)
      simp only [List.length_cons, List.length_append, List.length_nil] at hlength
      omega
  · exact LooksExpanded.expand_eq_self

/-! ## Slashes -/

theorem getLast?_dotted_eq_semicolon_iff {s : Text} :
    (dotted s).getLast? = some ';' ↔ s.getLast? = some ';' := by
  rw [List.getLast?_eq_some_iff, List.getLast?_eq_some_iff]
  constructor
  · rintro ⟨a, ha⟩
    obtain ⟨a', b, rfl, -, hb⟩ := Text.dotted_eq_append_iff.mp ha
    obtain ⟨t, rfl, ht⟩ := (Text.dotted_eq_cons_iff (by decide) (by decide)).mp hb
    rw [List.map_eq_nil_iff.mp ht]
    exact ⟨a', rfl⟩
  · rintro ⟨a, rfl⟩
    exact ⟨dotted a, Text.dotted_append a [';']⟩

theorem dotted_expandElement (s : Text) :
    dotted (expandElement s) = expandElement (dotted s) := by
  match s with
  | [] => rfl
  | [c] =>
    by_cases hc : c = '/'
    · subst hc
      decide
    · have hdot : dotted [c] = [c] := dotted_eq_self fun hm => hc (List.mem_singleton.mp hm).symm
      rw [hdot, expandElement]
      split
      · exact Primitive.dotted_name _
      · exact hdot
  | c :: d :: rest =>
    have hcons : dotted (c :: d :: rest) = (if c = '/' then '.' else c) :: dotted (d :: rest) := rfl
    have hclass : ((if c = '/' then '.' else c) = 'L' ∧ (dotted (d :: rest)).getLast? = some ';') ↔
        (c = 'L' ∧ (d :: rest).getLast? = some ';') :=
      and_congr (Text.turned_eq_iff (by decide) (by decide)) getLast?_dotted_eq_semicolon_iff
    rw [hcons, expandElement, expandElement]
    · by_cases h : c = 'L' ∧ (d :: rest).getLast? = some ';'
      · rw [if_pos h, if_pos (hclass.mpr h)]
        exact List.map_dropLast
      · rw [if_neg h, if_neg (mt hclass.mp h), hcons]
    · exact List.cons_ne_nil _ _
    · exact List.cons_ne_nil _ _

/-- **It is the same to turn the slashes before the expansion or after it.** -/
theorem dotted_expand (s : Text) : dotted (expand s) = expand (dotted s) := by
  have hmarks : dotted (s.takeWhile isExpansionMark) = s.takeWhile isExpansionMark := by
    refine dotted_eq_self fun hm => ?_
    exact absurd (List.all_eq_true.mp List.all_takeWhile _ hm) (by decide)
  have hbrackets : ∀ n, dotted (brackets n) = brackets n := by
    refine fun n => dotted_eq_self fun hm => ?_
    rcases mem_brackets hm with h | h
    · exact absurd h (by decide)
    · exact absurd h (by decide)
  rw [expand, Text.dotted_append, dotted_expandElement, hbrackets, expand,
    ← Text.dotted_dropWhile (by decide), ← Text.dotted_takeWhile (by decide), hmarks]

/-! ## What the readers accept -/

/--
**Expansion agrees with the readers.** Of a text that is read as the encoding of a type, expansion
answers the name of that type, whether the slashes are turned after it or before it. Where a text is
read as the name of an array, the binary name of this array expands to its name.
-/
theorem expand_of_read :
    (∀ token d, ofField token = .ok d → dotted (expand token) = d.name ∧
      expand (dotted token) = d.name) ∧
    (∀ s d, ofTypeName s = .ok d → d.isArray = true → expand d.binaryName = d.name) := by
  constructor
  · intro token d h
    have hspelled : dotted token = d.encode := (ofField_eq_ok_iff.mp h).1
    have hname : expand (dotted token) = d.name := by rw [hspelled, expand_encode]
    exact ⟨by rw [dotted_expand, hname], hname⟩
  · intro s d _ harray
    have hdepth : d.depth ≠ 0 := by simpa [isArray] using harray
    rw [binaryName, if_neg hdepth, expand_encode]

/-- A class whose name starts like an encoding itself, and an array of a class called like a
primitive type. -/
theorem expand_of_read_odd_names :
    let odd : Descriptor := ⟨.reference "[I.L".toList, 2⟩
    let ints : Descriptor := ⟨.reference "int".toList, 1⟩
    ofField "[[L[I/L;".toList = .ok odd ∧ dotted (expand "[[L[I/L;".toList) = odd.name ∧
      expand (dotted "[[L[I/L;".toList) = odd.name ∧
      ofTypeName " [Lint;".toList = .ok ints ∧ expand ints.binaryName = ints.name := by
  intro odd ints
  have hodd : ofField "[[L[I/L;".toList = .ok odd := by rfl
  have hints : ofTypeName " [Lint;".toList = .ok ints := by rfl
  obtain ⟨hfield, harray⟩ := expand_of_read
  obtain ⟨hafter, hbefore⟩ := hfield _ _ hodd
  exact ⟨hodd, hafter, hbefore, hints, harray _ _ hints rfl⟩

end Descriptor

end JvmSignature
