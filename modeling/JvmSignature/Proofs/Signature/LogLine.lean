import JvmSignature.Signature.LogLine

/-!
# Cutting log lines

A line that was put together from a class, a member, parameters and a return type is cut into just
these, though each of them is taken as long as it can be (`pieces?_line`). The reason is that the
parameters start with `(`, and no other `(` follows a blank: every cut further on fails.
-/

namespace JvmSignature.LogLine

variable {α : Type} {ok : Char → Bool} {accept : Text → Option α}

/-! ## The longest cut -/

/-- Nothing is cut where nothing is accepted behind a space. -/
theorem longestCut_eq_none {s : Text}
    (h : ∀ a rest, s = a ++ ' ' :: rest → accept rest = none) :
    longestCut ok accept s = none := by
  induction s with
  | nil => rfl
  | cons c s ih =>
    have hlater : longestCut ok accept s = none :=
      ih fun a rest he => h (c :: a) rest (by rw [he, List.cons_append])
    rw [longestCut, hlater, ite_self]
    by_cases hc : c = ' '
    · simp only [if_pos hc, h [] s (by rw [hc]; rfl), Option.map_none]
    · simp only [if_neg hc]

/-- A beginning is cut off at a space that is the last behind which something is accepted. -/
theorem longestCut_append {a rest : Text} {found : α} (hok : ∀ c ∈ a, ok c = true)
    (hfound : accept rest = some found) (hlater : longestCut ok accept rest = none) :
    longestCut ok accept (a ++ ' ' :: rest) = some (a, found) := by
  induction a with
  | nil => rw [List.nil_append, longestCut, hlater, ite_self, if_pos rfl, hfound, Option.map_some]
  | cons c a ih =>
    have ha := ih fun x hx => hok x (List.mem_cons_of_mem _ hx)
    rw [List.cons_append, longestCut, if_pos (hok c List.mem_cons_self), ha]

theorem longestName_append {a rest : Text} {found : α} (hne : a ≠ [])
    (hok : ∀ c ∈ a, ok c = true) (hfound : accept rest = some found)
    (hlater : longestCut ok accept rest = none) :
    longestName ok accept (a ++ ' ' :: rest) = some (a, found) := by
  obtain ⟨c, a, rfl⟩ := List.exists_cons_of_ne_nil hne
  have ha := longestCut_append (fun x hx => hok x (List.mem_cons_of_mem c hx)) hfound hlater
  rw [List.cons_append, longestName, if_pos (hok c List.mem_cons_self), ha, Option.map_some]

/-! ## The pieces of a line -/

/-- Whether parameters start nowhere behind a space. -/
def NoOpening (s : Text) : Prop := ∀ a b, s ≠ a ++ ' ' :: '(' :: b

/-- A group in parentheses that holds no other `(` starts nowhere behind a space. -/
theorem noOpening_of_notMem {s : Text} (h : '(' ∉ s) : NoOpening ('(' :: s) := by
  intro a b he
  cases a with
  | nil => cases he
  | cons c a =>
    rw [List.cons_append] at he
    refine h ?_
    rw [(List.cons.inj he).2]
    simp

theorem NoOpening.suffix {a s : Text} (h : NoOpening (a ++ s)) : NoOpening s := by
  rintro p q rfl
  exact h (a ++ p) q (List.append_assoc ..).symm

theorem longestCut_params_eq_none {s : Text} (h : NoOpening s) :
    longestCut ok paramsAndReturn? s = none := by
  refine longestCut_eq_none fun a rest he => ?_
  cases rest with
  | nil => rfl
  | cons c rest =>
    have hc : c ≠ '(' := by
      rintro rfl
      exact h a rest he
    rw [paramsAndReturn?_cons, if_neg hc]

/-- No member is found where no parameters start. -/
theorem longestName_member_eq_none {s : Text} (h : NoOpening s) :
    longestName isMemberChar paramsAndReturn? s = none := by
  cases s with
  | nil => rfl
  | cons c s =>
    have hs : NoOpening ([c] ++ s) := h
    rw [longestName, longestCut_params_eq_none hs.suffix, Option.map_none, ite_self]

theorem takeLine_eq_self {s : Text} (h : '\n' ∉ s) : s.takeWhile (· != '\n') = s := by
  induction s with
  | nil => rfl
  | cons c s ih =>
    simp only [List.mem_cons, not_or] at h
    rw [takeLine_cons (Ne.symm h.1), ih h.2]

/-- The parameters end at the last `)` of the line. -/
theorem paramsAndReturn?_line {params result : Text} (hline : '\n' ∉ params ++ ')' :: result)
    (hclosing : ')' ∉ result) :
    paramsAndReturn? ('(' :: (params ++ ')' :: result)) = some ('(' :: params ++ [')'], result) := by
  rw [paramsAndReturn?, takeLine_eq_self hline, Text.cutAtLast?_eq_some_iff.mpr ⟨rfl, hclosing⟩,
    Option.map_some]

/-- **A line is cut where it was put together.** -/
theorem pieces?_line {owner member params result : Text} (howner : owner ≠ [])
    (hclass : ∀ c ∈ owner, isClassChar c = true) (hmember : member ≠ [])
    (hname : ∀ c ∈ member, isMemberChar c = true) (hspace : ' ' ∉ member)
    (hline : '\n' ∉ params ++ ')' :: result) (hopening : '(' ∉ params ++ ')' :: result)
    (hclosing : ')' ∉ result) :
    pieces? (owner ++ ' ' :: (member ++ ' ' :: '(' :: (params ++ ')' :: result))) =
      some ⟨owner, member, '(' :: params ++ [')'], result⟩ := by
  have hno := noOpening_of_notMem hopening
  have hfound := longestName_append hmember hname (paramsAndReturn?_line hline hclosing)
    (longestCut_params_eq_none hno)
  have hlater : longestCut isClassChar (longestName isMemberChar paramsAndReturn?)
      (member ++ ' ' :: '(' :: (params ++ ')' :: result)) = none := by
    -- The member holds no space, so a class that is longer reaches into the parameters.
    refine longestCut_eq_none fun a rest he => longestName_member_eq_none ?_
    rcases List.append_eq_append_iff.mp he with ⟨more, rfl, hm⟩ | ⟨more, rfl, hm⟩
    · cases more with
      | nil =>
        obtain rfl := (List.cons.inj hm).2
        exact hno
      | cons c more =>
        obtain ⟨-, hm⟩ := List.cons.inj hm
        rw [hm] at hno
        exact NoOpening.suffix (a := more ++ [' ']) (by simpa using hno)
    · cases more with
      | nil =>
        obtain rfl := (List.cons.inj hm).2
        exact hno
      | cons c more =>
        obtain ⟨rfl, -⟩ := List.cons.inj hm
        exact absurd (by simp) hspace
  rw [pieces?_eq, longestName_append howner hclass hfound hlater, Option.map_some]

end JvmSignature.LogLine
