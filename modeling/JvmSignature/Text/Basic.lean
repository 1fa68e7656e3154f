/-!
# Text

A text is a list of characters, so every reader of this library is a recursion on what is left to
read. The file holds the cuts that the readers share: at a character, at a piece of text, at one
pair of enclosing delimiters.

Every cut gives back the whole text: `cut?` answers the two sides of the first occurrence,
`cutAt?` and `cutAtLast?` those of one character, and the lemmas beside them say so.
-/

namespace JvmSignature

/-- A text, as the list of its characters. -/
abbrev Text := List Char

namespace Text

/-! ## Beginnings and ends -/

theorem isPrefixOf?_eq_some_iff {p s r : Text} : p.isPrefixOf? s = some r ↔ s = p ++ r := by
  induction p generalizing s with
  | nil =>
    have step : ([] : Text).isPrefixOf? s = some s := by cases s <;> rfl
    rw [step, List.nil_append]
    exact Option.some_inj
  | cons c p ih =>
    cases s with
    | nil => exact ⟨nofun, nofun⟩
    | cons d s =>
      have step : (c :: p).isPrefixOf? (d :: s) = if c == d then p.isPrefixOf? s else none := rfl
      by_cases h : c = d
      · rw [step, if_pos (beq_iff_eq.mpr h), ih, h, List.cons_append]
        exact ⟨fun hs => hs ▸ rfl, fun hs => (List.cons.inj hs).2⟩
      · rw [step, if_neg (fun hb => h (beq_iff_eq.mp hb)), List.cons_append]
        exact ⟨nofun, fun hs => absurd (List.cons.inj hs).1.symm h⟩

theorem isSuffixOf?_eq_some_iff {p s r : Text} : p.isSuffixOf? s = some r ↔ s = r ++ p := by
  have step : p.isSuffixOf? s = (p.reverse.isPrefixOf? s.reverse).map List.reverse := rfl
  rw [step, Option.map_eq_some_iff]
  constructor
  · rintro ⟨a, ha, rfl⟩
    have h := isPrefixOf?_eq_some_iff.mp ha
    rw [← List.reverse_reverse s, h]
    simp
  · rintro rfl
    exact ⟨r.reverse, isPrefixOf?_eq_some_iff.mpr (by simp), by simp⟩

/--
What stands between `opening` and `closing`, when the text starts with the one and ends with the
other, as two different characters of it.
-/
def between? (opening closing : Char) : Text → Option Text
  | [] => none
  | c :: s => if c = opening then [closing].isSuffixOf? s else none

theorem between?_eq_some_iff {o c : Char} {s r : Text} :
    between? o c s = some r ↔ s = o :: (r ++ [c]) := by
  cases s with
  | nil => simp [between?]
  | cons d s =>
    by_cases h : d = o
    · rw [between?, if_pos h, isSuffixOf?_eq_some_iff, h]
      exact ⟨fun hs => hs ▸ rfl, fun hs => (List.cons.inj hs).2⟩
    · rw [between?, if_neg h]
      exact ⟨fun hs => absurd hs (by simp), fun hs => absurd (List.cons.inj hs).1 h⟩

/-- The text without one pair of enclosing parentheses; a text that has no such pair is kept. -/
def unparenthesized (s : Text) : Text := (between? '(' ')' s).getD s

/-! ## Cuts -/

/-- The two sides of the first occurrence of `sep`. -/
def cut? (sep : Text) : Text → Option (Text × Text)
  | [] => (sep.isPrefixOf? []).map ([], ·)
  | c :: s =>
    match sep.isPrefixOf? (c :: s) with
    | some after => some ([], after)
    | none => (cut? sep s).map fun (before, after) => (c :: before, after)

/-- A cut loses nothing but the separator. -/
theorem eq_of_cut? {sep : Text} : ∀ {s a b : Text}, cut? sep s = some (a, b) → s = a ++ sep ++ b
  | [], a, b, h => by
    obtain ⟨r, hr, he⟩ := Option.map_eq_some_iff.mp h
    cases he
    simpa using isPrefixOf?_eq_some_iff.mp hr
  | c :: s, a, b, h => by
    rw [cut?] at h
    split at h
    · next after hp =>
      cases h
      simpa using isPrefixOf?_eq_some_iff.mp hp
    · obtain ⟨⟨x, y⟩, hxy, he⟩ := Option.map_eq_some_iff.mp h
      cases he
      simp [eq_of_cut? hxy]

/-- Whether a piece of text stands somewhere in another text. -/
def occursIn (piece s : Text) : Bool := (cut? piece s).isSome

/-- The two sides of the first `sep`. -/
def cutAt? (sep : Char) (s : Text) : Option (Text × Text) :=
  match s.dropWhile (· != sep) with
  | [] => none
  | _ :: after => some (s.takeWhile (· != sep), after)

/-- The two sides of the last `sep`. -/
def cutAtLast? (sep : Char) (s : Text) : Option (Text × Text) :=
  (cutAt? sep s.reverse).map fun (after, before) => (before.reverse, after.reverse)

theorem cutAt?_cons_of_ne {sep c : Char} (h : c ≠ sep) (s : Text) :
    cutAt? sep (c :: s) = (cutAt? sep s).map fun (before, after) => (c :: before, after) := by
  have hb : (c != sep) = true := by simp [h]
  simp only [cutAt?, List.dropWhile_cons_of_pos (p := (· != sep)) hb,
    List.takeWhile_cons_of_pos (p := (· != sep)) hb]
  cases s.dropWhile (· != sep) <;> rfl

theorem cutAt?_eq_some_iff {sep : Char} {s a b : Text} :
    cutAt? sep s = some (a, b) ↔ s = a ++ sep :: b ∧ sep ∉ a := by
  induction s generalizing a with
  | nil => simp [cutAt?]
  | cons c s ih =>
    by_cases h : c = sep
    · subst h
      cases a with
      | nil => simp [cutAt?]
      | cons d a =>
        simp only [cutAt?, bne_self_eq_false, Bool.false_eq_true, not_false_eq_true,
          List.dropWhile_cons_of_neg, List.takeWhile_cons_of_neg, Option.some.injEq,
          Prod.mk.injEq, List.cons_append, List.cons.injEq, List.mem_cons, not_or]
        constructor
        · rintro ⟨⟨⟩, _⟩
        · rintro ⟨⟨rfl, _⟩, hne, _⟩
          exact absurd rfl hne
    · rw [cutAt?_cons_of_ne h, Option.map_eq_some_iff]
      constructor
      · rintro ⟨⟨x, y⟩, hxy, he⟩
        cases he
        obtain ⟨rfl, hx⟩ := ih.mp hxy
        exact ⟨rfl, by simp [hx, Ne.symm h]⟩
      · rintro ⟨he, ha⟩
        cases a with
        | nil => exact absurd (List.cons.inj he).1 h
        | cons d a =>
          obtain ⟨rfl, rfl⟩ := List.cons.inj he
          exact ⟨(a, b), ih.mpr ⟨rfl, fun hm => ha (List.mem_cons_of_mem _ hm)⟩, rfl⟩

theorem cutAtLast?_eq_some_iff {sep : Char} {s a b : Text} :
    cutAtLast? sep s = some (a, b) ↔ s = a ++ sep :: b ∧ sep ∉ b := by
  rw [cutAtLast?, Option.map_eq_some_iff]
  constructor
  · rintro ⟨⟨x, y⟩, hxy, he⟩
    cases he
    obtain ⟨hs, hx⟩ := cutAt?_eq_some_iff.mp hxy
    refine ⟨?_, by simpa using hx⟩
    rw [← List.reverse_reverse s, hs]
    simp
  · rintro ⟨rfl, hb⟩
    exact ⟨(b.reverse, a.reverse), cutAt?_eq_some_iff.mpr ⟨by simp, by simpa using hb⟩, by simp⟩

theorem cutAt?_eq_none_iff {sep : Char} {s : Text} : cutAt? sep s = none ↔ sep ∉ s := by
  induction s with
  | nil => simp [cutAt?]
  | cons c s ih =>
    by_cases h : c = sep
    · subst h
      simp [cutAt?]
    · rw [cutAt?_cons_of_ne h, Option.map_eq_none_iff, ih]
      simp [Ne.symm h]

theorem cutAtLast?_eq_none_iff {sep : Char} {s : Text} : cutAtLast? sep s = none ↔ sep ∉ s := by
  rw [cutAtLast?, Option.map_eq_none_iff, cutAt?_eq_none_iff, List.mem_reverse]

/-- The last `sep` of a text is found behind its first character, or is that character. -/
theorem cutAtLast?_cons (sep c : Char) (s : Text) :
    cutAtLast? sep (c :: s) =
      match cutAtLast? sep s with
      | some (before, after) => some (c :: before, after)
      | none => if c = sep then some ([], s) else none := by
  split
  · next before after h =>
    obtain ⟨rfl, ha⟩ := cutAtLast?_eq_some_iff.mp h
    exact cutAtLast?_eq_some_iff.mpr ⟨rfl, ha⟩
  · next h =>
    have hs := cutAtLast?_eq_none_iff.mp h
    split
    · next hc => exact cutAtLast?_eq_some_iff.mpr ⟨by rw [hc]; rfl, hs⟩
    · next hc => exact cutAtLast?_eq_none_iff.mpr (by simp [hs, Ne.symm hc])

/-! ## Names with slashes -/

/-- The text with every `/` turned into `.`. -/
def dotted (s : Text) : Text := s.map fun c => if c = '/' then '.' else c

/-- The text with every `.` turned into `/`. -/
def slashed (s : Text) : Text := s.map fun c => if c = '.' then '/' else c

theorem dotted_append (s t : Text) : dotted (s ++ t) = dotted s ++ dotted t := List.map_append

theorem slash_not_mem_dotted (s : Text) : '/' ∉ dotted s := by
  intro h
  obtain ⟨c, _, hc⟩ := List.mem_map.mp h
  by_cases hs : c = '/'
  · rw [if_pos hs] at hc
    exact absurd hc (by decide)
  · rw [if_neg hs] at hc
    exact hs hc

theorem dotted_eq_self {s : Text} (h : '/' ∉ s) : dotted s = s := by
  refine (List.map_congr_left fun c hc => ?_).trans (List.map_id s)
  have hne : c ≠ '/' := fun he => h (he ▸ hc)
  exact if_neg hne

end Text

end JvmSignature
