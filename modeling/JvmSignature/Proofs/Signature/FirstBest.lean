import JvmSignature.Proofs.Signature.Ranking
import Mathlib.Data.List.MinMax
import Mathlib.Data.Nat.Count
import Mathlib.Order.Nat

/-!
# Scores by places, and the first of the highest

What the score of a line is can be said without reading the line from left to right: a line counts
if it holds the name of the member and is read as a declaration with the name, the modifiers and the
number of parameters of the member, and then its score is the number of places at which the types
agree (`Scores`). Every line has one score (`scores_iff`).

The best line has the highest of the scores and the least place among the lines with this score
(`IsFirstBest.isLeast`), and there is only one such line (`IsFirstBest.bestLine_eq`). Index 0 is also
the answer where no line counts; the score tells the two apart.
-/

namespace JvmSignature

/-- Pairs that agree are counted by their places. -/
theorem countP_zip_eq_count {α β : Type} (p : α → β → Bool) (l : List α) (r : List β) :
    (l.zip r).countP (fun e => p e.1 e.2) =
      Nat.count (fun i => ∃ a ∈ l[i]?, ∃ b ∈ r[i]?, p a b = true) l.length := by
  induction l generalizing r with
  | nil => rfl
  | cons a l ih =>
    cases r with
    | nil => simp
    | cons b r =>
      rw [List.zip_cons_cons, List.countP_cons, ih, List.length_cons, Nat.count_succ']
      simp

namespace Member

variable {m : Member}

/-! ## The score of a line -/

/-- Whether the types that the member and a declaration have at a place among the parameters
agree. -/
def AgreesAt (m : Member) (parts : Parts) (place : Nat) : Prop :=
  ∃ known ∈ m.paramTypes[place]?, ∃ declared ∈ parts.paramTypes[place]?,
    parts.typeVariables.agree known declared = true

instance (m : Member) (parts : Parts) : DecidablePred (m.AgreesAt parts) :=
  fun _ => inferInstanceAs (Decidable (∃ known ∈ _, ∃ declared ∈ _, _ = true))

/-- Whether a line counts: it holds the name of the member, and is read as a declaration with the
name, the modifiers and the number of parameters of the member. -/
structure Counts (m : Member) (line : Text) (parts : Parts) : Prop where
  named : m.name <:+: line
  read : Parts.ofDeclaration m.className line = .ok parts
  memberName : parts.memberName = m.name
  modifier : parts.modifier = m.modifier
  arity : parts.paramTypes.length = m.paramTypes.length

/-- Whether a line has a score: the number of places at which the parameters agree, and one more
where the return types do; of a line that does not count 0. -/
inductive Scores (m : Member) (line : Text) : Nat → Prop
  | uncounted (h : ∀ parts, ¬ m.Counts line parts) : Scores m line 0
  | counted {parts : Parts} (h : m.Counts line parts) :
      Scores m line (Nat.count (m.AgreesAt parts) m.paramTypes.length +
        if parts.typeVariables.agree m.returnType parts.returnType then 1 else 0)

theorem agreement_eq_count (m : Member) (parts : Parts) :
    m.agreement parts = Nat.count (m.AgreesAt parts) m.paramTypes.length +
      if parts.typeVariables.agree m.returnType parts.returnType then 1 else 0 := by
  rw [agreement, countP_zip_eq_count (fun known declared => parts.typeVariables.agree known declared)]
  congr!

theorem ofDeclaration_eq_ok_iff {className line : Text} {parts : Parts} :
    Parts.ofDeclaration className line = .ok parts ↔
      Declaration.parts? className line = some parts := by
  unfold Parts.ofDeclaration
  cases Declaration.parts? className line <;> simp

theorem Counts.lineScore_eq {line : Text} {parts : Parts} (h : m.Counts line parts) :
    m.lineScore line = m.agreement parts := by
  rw [lineScore, if_pos (Text.occursIn_iff.mpr h.named), declarationScore,
    ofDeclaration_eq_ok_iff.mp h.read]
  exact if_pos ⟨h.memberName, h.modifier, h.arity⟩

theorem lineScore_eq_zero {line : Text} (h : ∀ parts, ¬ m.Counts line parts) :
    m.lineScore line = 0 := by
  unfold lineScore declarationScore partsScore
  split
  · next hname =>
    split
    · next parts hparts =>
      refine if_neg fun hagrees => h parts ?_
      exact ⟨Text.occursIn_iff.mp hname, ofDeclaration_eq_ok_iff.mpr hparts, hagrees.1,
        hagrees.2.1, hagrees.2.2⟩
    · rfl
  · rfl

/-- **Every line has one score.** -/
theorem scores_iff {line : Text} {n : Nat} : m.Scores line n ↔ m.lineScore line = n := by
  constructor
  · intro h
    cases h with
    | uncounted h => exact lineScore_eq_zero h
    | counted h => rw [h.lineScore_eq, agreement_eq_count]
  · rintro rfl
    by_cases hcounts : ∃ parts, m.Counts line parts
    · obtain ⟨parts, h⟩ := hcounts
      rw [h.lineScore_eq, agreement_eq_count]
      exact .counted h
    · have h := not_exists.mp hcounts
      rw [lineScore_eq_zero h]
      exact .uncounted h

/-! ## The best line -/

namespace IsFirstBest

variable {lines : List Text} {best : BestLine}

/-- There is only one first best line. -/
theorem eq {b : BestLine} (h : m.IsFirstBest lines best) (hb : m.IsFirstBest lines b) :
    best = b := by
  -- Each score is that of a line, and neither line has more than the other best one.
  have hscore : best.score = b.score := by
    obtain ⟨line, hline, hl⟩ := h.getElem?
    obtain ⟨line', hline', hl'⟩ := hb.getElem?
    refine Nat.le_antisymm ?_ ?_
    · exact hl ▸ hb.lineScore_le (List.mem_of_getElem? hline)
    · exact hl' ▸ h.lineScore_le (List.mem_of_getElem? hline')
  have hindex : best.index = b.index := by
    have hleast := h.isLeast
    rw [hscore] at hleast
    exact hleast.unique hb.isLeast
  cases best
  cases b
  simp_all

/-- **A first best line that counts is the best line.** -/
theorem bestLine_eq (h : m.IsFirstBest lines best) (hpos : 0 < best.score) :
    m.bestLine lines = best := by
  rcases bestLine_cases m lines with ⟨-, hzero⟩ | ⟨hbest, -⟩
  · obtain ⟨line, hline, hl⟩ := h.getElem?
    have := hzero line (List.mem_of_getElem? hline)
    omega
  · exact hbest.eq h

/-- Lines with lower scores may stand in front of the first best line, and lines with scores that
are not higher behind it. -/
theorem append (h : m.IsFirstBest lines best) {front back : List Text}
    (hfront : ∀ line ∈ front, m.lineScore line < best.score)
    (hback : ∀ line ∈ back, m.lineScore line ≤ best.score) :
    m.IsFirstBest (front ++ lines ++ back) ⟨front.length + best.index, best.score⟩ := by
  obtain ⟨before, line, after, rfl, rfl, hbefore, hafter⟩ := h
  refine ⟨front ++ before, line, after ++ back, by simp, by simp, ?_, ?_⟩
  · exact List.forall_mem_append.mpr ⟨hfront, hbefore⟩
  · exact List.forall_mem_append.mpr ⟨hafter, hback⟩

end IsFirstBest

/-- Where no line counts, index and score are 0. -/
theorem bestLine_of_zero {lines : List Text} (h : ∀ line ∈ lines, m.lineScore line = 0) :
    m.bestLine lines = ⟨0, 0⟩ := by
  rcases bestLine_cases m lines with ⟨hnone, -⟩ | ⟨hbest, hpos⟩
  · exact hnone
  · obtain ⟨line, hline, hl⟩ := hbest.getElem?
    have := h line (List.mem_of_getElem? hline)
    omega

/-- A line counts where the best score is positive. -/
theorem score_bestLine_pos_iff {lines : List Text} :
    0 < (m.bestLine lines).score ↔ ∃ line ∈ lines, 0 < m.lineScore line := by
  rcases bestLine_cases m lines with ⟨hnone, hzero⟩ | ⟨hbest, hpos⟩
  · rw [hnone]
    refine iff_of_false (Nat.lt_irrefl 0) ?_
    rintro ⟨line, hline, hl⟩
    exact Nat.ne_of_gt hl (hzero line hline)
  · obtain ⟨line, hline, hl⟩ := hbest.getElem?
    exact iff_of_true hpos ⟨line, List.mem_of_getElem? hline, hl ▸ hpos⟩

theorem score_bestLine_eq (m : Member) (lines : List Text) :
    (m.bestLine lines).score = (lines.map m.lineScore).foldr max 0 := by
  rcases bestLine_cases m lines with ⟨hnone, hzero⟩ | ⟨hbest, -⟩
  · rw [hnone]
    refine Nat.le_antisymm (Nat.zero_le _) (List.max_le_of_forall_le _ _ ?_)
    rintro n hn
    obtain ⟨line, hline, rfl⟩ := List.mem_map.mp hn
    exact Nat.le_of_eq (hzero line hline)
  · obtain ⟨line, hline, hl⟩ := hbest.getElem?
    refine Nat.le_antisymm ?_ (List.max_le_of_forall_le _ _ ?_)
    · exact List.le_max_of_le (List.mem_map_of_mem (List.mem_of_getElem? hline))
        (Nat.le_of_eq hl.symm)
    · rintro n hn
      obtain ⟨line', hline', rfl⟩ := List.mem_map.mp hn
      exact hbest.lineScore_le hline'

/-- A best score that is not 0 is that of the first best line. -/
theorem isFirstBest_bestLine {lines : List Text} (hpos : 0 < (m.bestLine lines).score) :
    m.IsFirstBest lines (m.bestLine lines) := by
  rcases bestLine_cases m lines with ⟨hnone, -⟩ | ⟨hbest, -⟩
  · rw [hnone] at hpos
    exact absurd hpos (Nat.lt_irrefl 0)
  · exact hbest

/-- The best line has a place among the lines, and its text is answered. -/
theorem bestLineText?_of_pos {lines : List Text} (hpos : 0 < (m.bestLine lines).score) :
    (m.bestLine lines).index < lines.length ∧
      m.bestLineText? lines = lines[(m.bestLine lines).index]? := by
  obtain ⟨line, hline, -⟩ := (isFirstBest_bestLine hpos).getElem?
  exact ⟨(List.getElem?_eq_some_iff.mp hline).1, if_pos (decide_eq_true hpos)⟩

theorem bestLineText?_of_zero {lines : List Text} (hzero : (m.bestLine lines).score = 0) :
    m.bestLineText? lines = none :=
  if_neg (by simp [BestLine.isMatch, hzero])

/-! ## More lines around -/

section Around

variable {lines front back : List Text}
  (hfront : ∀ line ∈ front, m.lineScore line < (m.bestLine lines).score)
  (hback : ∀ line ∈ back, m.lineScore line ≤ (m.bestLine lines).score)

include hfront hback

/-- **Lines in front with lower scores, and lines behind with scores that are not higher, do not
change which line is the best.** -/
theorem bestLine_append :
    m.bestLine (front ++ lines ++ back) =
      ⟨front.length + (m.bestLine lines).index, (m.bestLine lines).score⟩ := by
  rcases bestLine_cases m lines with ⟨hnone, hzero⟩ | ⟨hbest, hpos⟩
  · -- No score is lower than that of no line.
    rw [hnone] at hfront hback ⊢
    obtain rfl : front = [] :=
      List.eq_nil_iff_forall_not_mem.mpr fun line hl => Nat.not_lt_zero _ (hfront line hl)
    refine bestLine_of_zero (List.forall_mem_append.mpr ⟨hzero, fun line hl => ?_⟩)
    exact Nat.le_zero.mp (hback line hl)
  · exact (hbest.append hfront hback).bestLine_eq hpos

theorem bestLineText?_append :
    m.bestLineText? (front ++ lines ++ back) = m.bestLineText? lines := by
  have hbest := bestLine_append hfront hback
  rcases Nat.eq_zero_or_pos (m.bestLine lines).score with hzero | hpos
  · rw [bestLineText?_of_zero hzero, bestLineText?_of_zero (by rw [hbest, hzero])]
  · obtain ⟨hlt, htext⟩ := bestLineText?_of_pos hpos
    have hpos' : 0 < (m.bestLine (front ++ lines ++ back)).score := by
      rw [hbest]
      exact hpos
    rw [htext, (bestLineText?_of_pos hpos').2, hbest, List.append_assoc,
      List.getElem?_append_right (Nat.le_add_right _ _), Nat.add_sub_cancel_left,
      List.getElem?_append_left hlt]

end Around

/--
**The best line is the first of those with the highest score.** Its index is the least place of such
a line, and 0 where no line counts. Lines in front with lower scores, and lines behind with scores
that are not higher, do not change which line it is. Its text is answered exactly where a line
counts, and there the index is that of a line.
-/
theorem bestLine_first_highest (m : Member) (lines : List Text) :
    (∀ line n, m.Scores line n ↔ m.lineScore line = n) ∧
    let best := m.bestLine lines
    best.score = (lines.map m.lineScore).foldr max 0 ∧
    best.score ≤ m.paramTypes.length + 1 ∧
    (0 < best.score →
      IsLeast {i | ∃ line, lines[i]? = some line ∧ m.lineScore line = best.score} best.index) ∧
    (best.score = 0 → best.index = 0) ∧
    (∀ front back, (∀ line ∈ front, m.lineScore line < best.score) →
      (∀ line ∈ back, m.lineScore line ≤ best.score) →
      m.bestLine (front ++ lines ++ back) = ⟨front.length + best.index, best.score⟩ ∧
      m.bestLineText? (front ++ lines ++ back) = m.bestLineText? lines) ∧
    ((∃ line ∈ lines, 0 < m.lineScore line) →
      ∃ h : best.index < lines.length, m.bestLineText? lines = some lines[best.index]) ∧
    ((∀ line ∈ lines, m.lineScore line = 0) → m.bestLineText? lines = none) := by
  refine ⟨fun _ _ => scores_iff, score_bestLine_eq m lines, score_bestLine_le m lines,
    fun hpos => (isFirstBest_bestLine hpos).isLeast, ?_, ?_, ?_, ?_⟩
  · intro hzero
    rcases bestLine_cases m lines with ⟨hnone, -⟩ | ⟨-, hpos⟩
    · rw [hnone]
    · exact absurd hzero (Nat.ne_of_gt hpos)
  · intro front back hfront hback
    exact ⟨bestLine_append hfront hback, bestLineText?_append hfront hback⟩
  · intro hcounts
    obtain ⟨hlt, htext⟩ := bestLineText?_of_pos (score_bestLine_pos_iff.mpr hcounts)
    exact ⟨hlt, by rw [htext, List.getElem?_eq_getElem hlt]⟩
  · intro hzero
    exact bestLineText?_of_zero (by rw [bestLine_of_zero hzero])

/-- Two lines agree equally well with a method, behind one that does not name it and before one that
has other modifiers. -/
theorem bestLine_first_highest_tie :
    let m : Member := ⟨"a.B".toList, "run".toList, 1, ["int".toList], "void".toList, false⟩
    let tied := ["public int run(int);".toList, "public void run(long);".toList]
    let field := ["private int count;".toList]
    let other := ["static void run(int);".toList]
    (∀ line ∈ field, m.lineScore line < (m.bestLine tied).score) ∧
      (∀ line ∈ other, m.lineScore line ≤ (m.bestLine tied).score) ∧
      m.bestLine tied = ⟨0, 1⟩ ∧ m.bestLine (field ++ tied ++ other) = ⟨1, 1⟩ ∧
      m.bestLineText? (field ++ tied ++ other) = some "public int run(int);".toList := by
  intro m tied field other
  have hbest : m.bestLine tied = ⟨0, 1⟩ := by decide +kernel
  have hfield : ∀ line ∈ field, m.lineScore line < (m.bestLine tied).score := by
    rw [hbest]
    decide +kernel
  have hother : ∀ line ∈ other, m.lineScore line ≤ (m.bestLine tied).score := by
    rw [hbest]
    decide +kernel
  obtain ⟨-, -, -, -, -, haround, -⟩ := bestLine_first_highest m tied
  obtain ⟨hindex, htext⟩ := haround field other hfield hother
  have htied : m.bestLineText? tied = some "public int run(int);".toList := by decide +kernel
  refine ⟨hfield, hother, hbest, ?_, by rw [htext, htied]⟩
  rw [hindex, hbest]
  rfl

end Member

end JvmSignature
