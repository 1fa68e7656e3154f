import JvmSignature.Proofs.Text.Cuts
import JvmSignature.Signature.Ranking
import Mathlib.Data.List.Forall2
import Mathlib.Order.Bounds.Basic

/-!
# The best of many lines

The lines are gone through once, and a line only takes the place of the best so far when its score is
higher. So the best line is the first of those with the highest score (`bestLine_cases`). No score is
higher than the number of parameters and one: a line that has this score settles the others.
-/

namespace JvmSignature.Member

variable {m : Member}

/-! ## One line -/

/-- At most every parameter and the return type agree. -/
theorem agreement_le {parts : Parts} : m.agreement parts ≤ m.paramTypes.length + 1 := by
  unfold agreement
  refine Nat.add_le_add (Nat.le_trans List.countP_le_length ?_) ?_
  · rw [List.length_zip]
    exact Nat.min_le_left _ _
  · split
    · exact Nat.le_refl 1
    · exact Nat.zero_le 1

/-- **No line has a higher score than one in which everything agrees.** -/
theorem lineScore_le (m : Member) (line : Text) : m.lineScore line ≤ m.paramTypes.length + 1 := by
  unfold lineScore declarationScore partsScore
  split
  · split
    · split
      · exact agreement_le
      · exact Nat.zero_le _
    · exact Nat.zero_le _
  · exact Nat.zero_le _

/-- Where all types agree, they are all counted. -/
theorem agreement_of_agree {parts : Parts}
    (hparams : List.Forall₂ (fun known declared => parts.typeVariables.agree known declared = true)
      m.paramTypes parts.paramTypes)
    (hreturn : parts.typeVariables.agree m.returnType parts.returnType = true) :
    m.agreement parts = m.paramTypes.length + 1 := by
  unfold agreement
  rw [if_pos hreturn, List.countP_eq_length.mpr, List.length_zip, ← hparams.length_eq, Nat.min_self]
  intro types htypes
  exact (List.forall₂_iff_zip.mp hparams).2 htypes

/-- **A line in which everything agrees has the highest score**, if it holds the name of the
member. -/
theorem lineScore_of_agree {line : Text} {parts : Parts} (hoccurs : m.name <:+: line)
    (hparts : Declaration.parts? m.className line = some parts) (hname : parts.memberName = m.name)
    (hmodifier : parts.modifier = m.modifier)
    (hparams : List.Forall₂ (fun known declared => parts.typeVariables.agree known declared = true)
      m.paramTypes parts.paramTypes)
    (hreturn : parts.typeVariables.agree m.returnType parts.returnType = true) :
    m.lineScore line = m.paramTypes.length + 1 := by
  rw [lineScore, if_pos (Text.occursIn_iff.mpr hoccurs), declarationScore, hparts]
  simp only
  rw [partsScore, if_pos ⟨hname, hmodifier, hparams.length_eq.symm⟩,
    agreement_of_agree hparams hreturn]

/-! ## Many lines -/

/-- Whether this is the first of the lines with the highest score: those before it have a lower
score, and those behind it no higher one. -/
def IsFirstBest (m : Member) (lines : List Text) (best : BestLine) : Prop :=
  ∃ before line after, lines = before ++ line :: after ∧
    best = ⟨before.length, m.lineScore line⟩ ∧
    (∀ l ∈ before, m.lineScore l < best.score) ∧ ∀ l ∈ after, m.lineScore l ≤ best.score

section FirstBest

variable {lines : List Text} {best : BestLine}

/-- A line in front of the others changes nothing but their places, if its score is lower. -/
theorem IsFirstBest.cons (h : m.IsFirstBest lines best) {line : Text}
    (hl : m.lineScore line < best.score) :
    m.IsFirstBest (line :: lines) ⟨best.index + 1, best.score⟩ := by
  obtain ⟨before, first, after, rfl, rfl, hbefore, hafter⟩ := h
  exact ⟨line :: before, first, after, rfl, rfl, List.forall_mem_cons.mpr ⟨hl, hbefore⟩, hafter⟩

theorem IsFirstBest.getElem? (h : m.IsFirstBest lines best) :
    ∃ line, lines[best.index]? = some line ∧ m.lineScore line = best.score := by
  obtain ⟨before, line, after, rfl, rfl, -⟩ := h
  exact ⟨line, by simp, rfl⟩

theorem IsFirstBest.lineScore_le (h : m.IsFirstBest lines best) {line : Text} (hl : line ∈ lines) :
    m.lineScore line ≤ best.score := by
  obtain ⟨before, first, after, rfl, rfl, hbefore, hafter⟩ := h
  rcases List.mem_append.mp hl with hl | hl
  · exact Nat.le_of_lt (hbefore line hl)
  · rcases List.mem_cons.mp hl with rfl | hl
    · exact Nat.le_refl _
    · exact hafter line hl

/-- **The place of the first best line is the least of those that have its score.** -/
theorem IsFirstBest.isLeast (h : m.IsFirstBest lines best) :
    IsLeast {i | ∃ line, lines[i]? = some line ∧ m.lineScore line = best.score} best.index := by
  refine ⟨h.getElem?, ?_⟩
  rintro i ⟨line, hi, hscore⟩
  obtain ⟨before, first, after, rfl, rfl, hbefore, -⟩ := h
  -- A line before the first best one has a lower score.
  by_contra hlt
  rw [List.getElem?_append_left (Nat.lt_of_not_le hlt)] at hi
  exact Nat.ne_of_lt (hbefore line (List.mem_of_getElem? hi)) hscore

end FirstBest

/-- Going through the lines either leaves the best so far, or ends with the first best of them. -/
theorem bestFrom_cases (m : Member) (index : Nat) (best : BestLine) (lines : List Text) :
    (m.bestFrom index best lines = best ∧ ∀ l ∈ lines, m.lineScore l ≤ best.score) ∨
      ∃ b, m.IsFirstBest lines b ∧ best.score < b.score ∧
        m.bestFrom index best lines = ⟨index + b.index, b.score⟩ := by
  induction lines generalizing index best with
  | nil => exact Or.inl ⟨rfl, by simp⟩
  | cons line lines ih =>
    rw [bestFrom]
    by_cases hl : best.score < m.lineScore line
    · have hbetter : best.better ⟨index, m.lineScore line⟩ = ⟨index, m.lineScore line⟩ := if_pos hl
      rw [hbetter]
      rcases ih (index + 1) ⟨index, m.lineScore line⟩ with ⟨hkept, hrest⟩ | ⟨b, hb, hlt, hfound⟩
      · exact Or.inr ⟨⟨0, m.lineScore line⟩, ⟨[], line, lines, rfl, rfl, by simp, hrest⟩, hl, hkept⟩
      · refine Or.inr ⟨⟨b.index + 1, b.score⟩, hb.cons hlt, Nat.lt_trans hl hlt, ?_⟩
        rw [hfound, Nat.add_assoc, Nat.add_comm 1]
    · have hbetter : best.better ⟨index, m.lineScore line⟩ = best := if_neg hl
      rw [hbetter]
      rcases ih (index + 1) best with ⟨hkept, hrest⟩ | ⟨b, hb, hlt, hfound⟩
      · exact Or.inl ⟨hkept, List.forall_mem_cons.mpr ⟨Nat.le_of_not_lt hl, hrest⟩⟩
      · refine Or.inr ⟨⟨b.index + 1, b.score⟩, hb.cons ?_, hlt, ?_⟩
        · exact Nat.lt_of_le_of_lt (Nat.le_of_not_lt hl) hlt
        · rw [hfound, Nat.add_assoc, Nat.add_comm 1]

/-- **The best line is the first with the highest score**, unless no line counts. -/
theorem bestLine_cases (m : Member) (lines : List Text) :
    (m.bestLine lines = ⟨0, 0⟩ ∧ ∀ l ∈ lines, m.lineScore l = 0) ∨
      m.IsFirstBest lines (m.bestLine lines) ∧ 0 < (m.bestLine lines).score := by
  rcases bestFrom_cases m 0 ⟨0, 0⟩ lines with ⟨hnone, hall⟩ | ⟨b, hb, hpos, hfound⟩
  · exact Or.inl ⟨hnone, fun l hl => Nat.le_zero.mp (hall l hl)⟩
  · have hbest : m.bestLine lines = b := by
      rw [bestLine, hfound, Nat.zero_add]
    rw [hbest]
    exact Or.inr ⟨hb, hpos⟩

theorem score_bestLine_le (m : Member) (lines : List Text) :
    (m.bestLine lines).score ≤ m.paramTypes.length + 1 := by
  rcases bestLine_cases m lines with ⟨hnone, -⟩ | ⟨hbest, -⟩
  · rw [hnone]
    exact Nat.zero_le _
  · obtain ⟨line, -, hline⟩ := hbest.getElem?
    exact hline ▸ lineScore_le m line

/-- **A line in which everything agrees gives the best score**, and the first such line wins. -/
theorem bestLine_of_full {lines : List Text} {line : Text} (hm : line ∈ lines)
    (hfull : m.lineScore line = m.paramTypes.length + 1) :
    (m.bestLine lines).score = m.paramTypes.length + 1 ∧
      (∃ first, lines[(m.bestLine lines).index]? = some first ∧
        m.lineScore first = m.paramTypes.length + 1) ∧
      ∀ i l, lines[i]? = some l → m.lineScore l = m.paramTypes.length + 1 →
        (m.bestLine lines).index ≤ i := by
  rcases bestLine_cases m lines with ⟨-, hzero⟩ | ⟨hbest, -⟩
  · have := hzero line hm
    omega
  · have hscore : (m.bestLine lines).score = m.paramTypes.length + 1 :=
      Nat.le_antisymm (score_bestLine_le m lines) (hfull ▸ hbest.lineScore_le hm)
    have hleast := hbest.isLeast
    rw [hscore] at hleast
    exact ⟨hscore, hleast.1, fun i l hl hl' => hleast.2 ⟨l, hl, hl'⟩⟩

end JvmSignature.Member
