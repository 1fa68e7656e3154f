import JvmSignature.Primitive
import JvmSignature.Proofs.Text.Cuts
import JvmSignature.SourceOutline

/-!
# Well-formed names

The readers of signatures find names by what stands around them: blanks, dots, brackets and
semicolons. A name that holds none of these comes back from every reader as it went in. The file
says which names those are: an *identifier* is a run of letters, digits, `_` and `$`, and a
*qualified name* is a run of identifiers with single dots between them.

What the readers need is that certain characters stand nowhere in a name (`IsIdentifier.not_mem`,
`IsQualifiedName.not_mem`): the `delimiters`, by which they find its ends, and blanks.
-/

namespace JvmSignature

open SourceOutline (isNameChar)

/-! ## Characters -/

/-- What holds of every character of a text is checked one character after the other. -/
theorem forall_mem_of_all {s : Text} {p : Char → Prop} [DecidablePred p]
    (h : s.all (fun c => decide (p c)) = true) : ∀ c ∈ s, p c :=
  fun c hc => of_decide_eq_true (List.all_eq_true.mp h c hc)

/-- A character of a text is none of the marks that do not stand in the text. -/
theorem contains_eq_false_of_mem {marks s : Text} (h : ∀ m ∈ marks, m ∉ s) {c : Char}
    (hc : c ∈ s) : marks.contains c = false := by
  rw [← Bool.not_eq_true, List.contains_iff_mem]
  exact fun hm => h c hm hc

/-- Stretches of code points without letters and digits, those before the first letter and those of
punctuation and blanks. -/
def gaps : List (Nat × Nat) :=
  [(0x0, 0x2F), (0x3A, 0x40), (0x5B, 0x60), (0x7B, 0xA9), (0x1680, 0x1680), (0x2000, 0x206F),
   (0x3000, 0x3004)]

theorem isAlphanumeric_of_gap {c : Char} {gap : Nat × Nat} (hg : gap ∈ gaps)
    (hfirst : gap.1 ≤ c.toNat) (hlast : c.toNat ≤ gap.2) : isAlphanumeric c = false := by
  have apart : ∀ gap ∈ gaps, ∀ r ∈ alphanumericRanges, r.2 < gap.1 ∨ gap.2 < r.1 := by
    decide +kernel
  rw [isAlphanumeric, List.any_eq_false]
  intro r hr
  have := apart gap hg r hr
  simp only [Bool.and_eq_true, decide_eq_true_eq]
  omega

/-- The characters by which the readers of signatures find the ends of a name. -/
def delimiters : Text := "/.,()<>;[]:\"& \n".toList

/-- No delimiter is part of a name. -/
theorem isNameChar_delimiter {c : Char} (h : c ∈ delimiters) : isNameChar c = false := by
  have stretch : ∀ c ∈ delimiters, c ≠ '_' ∧ c ≠ '$' ∧
      ∃ gap ∈ gaps, gap.1 ≤ c.toNat ∧ c.toNat ≤ gap.2 := forall_mem_of_all (by decide)
  obtain ⟨hu, hd, gap, hg, h1, h2⟩ := stretch c h
  rw [isNameChar, isAlphanumeric_of_gap hg h1 h2]
  simp [hu, hd]

theorem ne_of_isNameChar {c d : Char} (hc : isNameChar c = true) (hd : d ∈ delimiters) : c ≠ d := by
  rintro rfl
  rw [isNameChar_delimiter hd] at hc
  cases hc

/-- The delimiters without some that are kept. -/
def delimitersBut (kept : Text) : Text := delimiters.filter fun c => c ∉ kept

theorem mem_delimitersBut_iff {kept : Text} {c : Char} :
    c ∈ delimitersBut kept ↔ c ∈ delimiters ∧ c ∉ kept := by
  rw [delimitersBut, List.mem_filter, decide_eq_true_eq]

/-- No blank is part of a name. -/
theorem isNameChar_of_isBlank {c : Char} (h : isBlank c = true) : isNameChar c = false := by
  have stretch : ∀ n ∈ blankCodes, ∃ gap ∈ gaps, gap.1 ≤ n ∧ n ≤ gap.2 := by decide
  obtain ⟨gap, hg, h1, h2⟩ := stretch c.toNat (List.contains_iff_mem.mp h)
  have hne : ∀ d, isBlank d = false → (c == d) = false := by
    intro d hd
    rw [beq_eq_false_iff_ne]
    rintro rfl
    rw [h] at hd
    cases hd
  rw [isNameChar, isAlphanumeric_of_gap hg h1 h2, hne '_' (by decide), hne '$' (by decide)]
  rfl

theorem isBlank_of_isNameChar {c : Char} (h : isNameChar c = true) : isBlank c = false := by
  cases hb : isBlank c with
  | false => rfl
  | true =>
    rw [isNameChar_of_isBlank hb] at h
    cases h

/-! ## Names -/

/-- A run of letters, digits, `_` and `$`. -/
def IsIdentifier (s : Text) : Prop := s ≠ [] ∧ ∀ c ∈ s, isNameChar c = true

instance (s : Text) : Decidable (IsIdentifier s) :=
  decidable_of_iff (s ≠ [] ∧ s.all isNameChar = true) (and_congr_right' List.all_eq_true)

/-- A run of identifiers with single dots between them. -/
def IsQualifiedName (s : Text) : Prop := ∀ piece ∈ s.splitOn '.', IsIdentifier piece

instance (s : Text) : Decidable (IsQualifiedName s) :=
  inferInstanceAs (Decidable (∀ piece ∈ s.splitOn '.', IsIdentifier piece))

/-- A qualified name that no primitive type has. -/
def IsClassName (s : Text) : Prop := IsQualifiedName s ∧ Primitive.ofName? s = none

instance (s : Text) : Decidable (IsClassName s) := inferInstanceAs (Decidable (_ ∧ _))

theorem IsIdentifier.not_mem {s : Text} (h : IsIdentifier s) {c : Char} (hc : c ∈ delimiters) :
    c ∉ s :=
  fun hm => ne_of_isNameChar (h.2 c hm) hc rfl

/-! ## Qualified names -/

/-- What stands in a text that is put together stands in a piece or in what joins the pieces. -/
theorem mem_or_exists_of_mem_intercalate {sep : Text} {pieces : List Text} {c : Char}
    (h : c ∈ sep.intercalate pieces) : c ∈ sep ∨ ∃ piece ∈ pieces, c ∈ piece := by
  induction pieces with
  | nil => cases h
  | cons p rest ih =>
    by_cases hr : rest = []
    · rw [hr, List.intercalate_singleton] at h
      exact Or.inr ⟨p, List.mem_cons_self, h⟩
    · rw [List.intercalate_cons_of_ne_nil hr, List.mem_append, List.mem_append] at h
      rcases h with (h | h) | h
      · exact Or.inr ⟨p, List.mem_cons_self, h⟩
      · exact Or.inl h
      · rcases ih h with hs | ⟨q, hq, hc⟩
        · exact Or.inl hs
        · exact Or.inr ⟨q, List.mem_cons_of_mem _ hq, hc⟩

/-- What stands in a piece stands in the text that is put together. -/
theorem mem_intercalate_of_mem {sep piece : Text} {pieces : List Text} {c : Char}
    (hp : piece ∈ pieces) (hc : c ∈ piece) : c ∈ sep.intercalate pieces :=
  (Text.infix_intercalate_of_mem sep hp).subset hc

/-- The characters of a qualified name are those of identifiers, and dots. -/
theorem isNameChar_or_eq_dot {s : Text} (h : IsQualifiedName s) {c : Char} (hm : c ∈ s) :
    isNameChar c = true ∨ c = '.' := by
  have hs : ['.'].intercalate (s.splitOn '.') = s := List.intercalate_splitOn '.'
  rw [← hs] at hm
  rcases mem_or_exists_of_mem_intercalate hm with hdot | ⟨piece, hp, hc⟩
  · exact Or.inr (List.mem_singleton.mp hdot)
  · exact Or.inl ((h piece hp).2 c hc)

theorem IsQualifiedName.not_mem {s : Text} (h : IsQualifiedName s) {c : Char}
    (hc : c ∈ delimitersBut ['.']) : c ∉ s := by
  intro hm
  obtain ⟨hdelimiter, hdot⟩ := mem_delimitersBut_iff.mp hc
  rcases isNameChar_or_eq_dot h hm with hn | he
  · exact ne_of_isNameChar hn hdelimiter rfl
  · exact hdot (List.mem_singleton.mpr he)

/-- No qualified name is empty, and none starts with a dot. -/
theorem IsQualifiedName.head {s : Text} (h : IsQualifiedName s) :
    ∃ c rest, s = c :: rest ∧ isNameChar c = true := by
  cases s with
  | nil => exact absurd rfl (h [] (by simp)).1
  | cons c rest =>
    refine ⟨c, rest, rfl, ?_⟩
    rcases isNameChar_or_eq_dot h (List.mem_cons_self (a := c)) with hn | rfl
    · exact hn
    · have hempty : [] ∈ ('.' :: rest).splitOn '.' := by
        rw [List.splitOn_cons_eq_if_modifyHead]
        simp
      exact absurd rfl (h [] hempty).1

/-- No qualified name ends with a dot. -/
theorem IsQualifiedName.last {s : Text} (h : IsQualifiedName s) :
    ∃ rest c, s = rest ++ [c] ∧ isNameChar c = true := by
  rcases List.eq_nil_or_concat s with rfl | ⟨rest, c, rfl⟩
  · exact absurd rfl (h [] (by simp)).1
  · rw [List.concat_eq_append] at h ⊢
    refine ⟨rest, c, rfl, ?_⟩
    rcases isNameChar_or_eq_dot h (c := c) (by simp) with hn | rfl
    · exact hn
    · have hempty : [] ∈ (rest ++ ['.']).splitOn '.' := by
        rw [List.splitOn_append_cons_self]
        simp
      exact absurd rfl (h [] hempty).1

/-- A qualified name may go on behind a dot. -/
theorem IsQualifiedName.append_dot {s t : Text} (hs : IsQualifiedName s) (ht : IsQualifiedName t) :
    IsQualifiedName (s ++ '.' :: t) := by
  intro piece hp
  rw [List.splitOn_append_cons_self, List.mem_append] at hp
  exact hp.elim (hs piece) (ht piece)

/-- An identifier is a qualified name of one piece. -/
theorem IsIdentifier.isQualifiedName {s : Text} (h : IsIdentifier s) : IsQualifiedName s := by
  have hs : s.splitOn '.' = [s] :=
    List.splitOn_eq_singleton (h.not_mem (by decide))
  intro piece hp
  rw [hs, List.mem_singleton] at hp
  rw [hp]
  exact h

end JvmSignature
