import JvmSignature.Proofs.Signature.FirstBest
import JvmSignature.Proofs.Text.TopLevel

/-!
# Lines are read only where they hold the name

A line that does not hold the name of a member is not read when declarations are ranked. Reading
takes a line apart, cuts off what stands around the name and undoes the escapes of angle brackets;
none of this makes up a name (`infix_of_parts?`). Only the name of the class can be answered where
it does not stand in the line, for the class of a constructor is not read. So for every other name
without angle brackets the lines could as well all be read (`bestLine_eq_bestOf`).
-/

namespace JvmSignature

namespace Declaration

/-! ## From the line to the name -/

theorem withoutTerminator_isInfix (s : Text) : withoutTerminator s <:+: s := by
  have hdrop : (s.trim.reverse.dropWhile (· == ';')).reverse <+: s.trim := by
    rw [← List.reverse_suffix, List.reverse_reverse]
    exact List.dropWhile_suffix _
  exact ((Text.trimEnd_isPrefix _).trans hdrop).isInfix.trans (Text.trim_isInfix s)

theorem isPrefix_of_headAndParams? {s head params : Text}
    (h : headAndParams? s = some (head, params)) : head <+: s := by
  unfold headAndParams? at h
  split at h
  · cases h
  · next before rest hcut =>
    obtain ⟨⟨x, y⟩, -, he⟩ := Option.map_eq_some_iff.mp h
    cases he
    exact ⟨'(' :: rest, (Text.cutAt?_eq_some_iff.mp hcut).1.symm⟩

theorem takeModifiers_isSuffix (words : List Text) : (takeModifiers words).2 <:+ words := by
  fun_induction takeModifiers words with
  | case1 => exact List.suffix_rfl
  | case2 word words bit hbit flags rest htake ih =>
    rw [htake] at ih
    exact ih.trans (List.suffix_cons word words)
  | case3 words hbit ih => exact ih.trans (List.suffix_cons _ words)
  | case4 => exact List.suffix_rfl

theorem takeTypeVariables_isSuffix (words : List Text) :
    (takeTypeVariables words).2 <:+ words := by
  unfold takeTypeVariables
  split
  · exact List.suffix_rfl
  · split
    · exact List.suffix_cons _ _
    · exact List.suffix_rfl

theorem mem_of_returnAndName? {words : List Text} {returnType name : Text}
    (h : returnAndName? words = some (returnType, name)) : name ∈ words := by
  unfold returnAndName? at h
  split at h
  · cases h
    simp
  · cases h
    simp
  · cases h

theorem simpleName_isSuffix (name : Text) : simpleName name <:+ name := by
  unfold simpleName
  split
  · next before simple hcut =>
    obtain ⟨hname, -⟩ := Text.cutAtLast?_eq_some_iff.mp hcut
    exact ⟨before ++ ['.'], by rw [hname]; simp⟩
  · exact List.suffix_rfl

/-- A declaration is read as one of a name that stands in the unescaped line. -/
theorem exists_name_of_parts? {className line : Text} {parts : Parts}
    (h : parts? className line = some parts) :
    ∃ name, name <:+: line.unescapeAngles ∧
      parts.memberName = declaredName className (memberName className name) := by
  simp only [parts?] at h
  split at h
  · cases h
  · next head params hhead =>
    split at h
    · cases h
    · next returnType name hname =>
      cases h
      have hword : name ∈ Text.splitTopLevel ' ' head :=
        ((takeTypeVariables_isSuffix _).trans (takeModifiers_isSuffix _)).subset
          (mem_of_returnAndName? hname)
      have hin : head <:+: line.unescapeAngles :=
        (isPrefix_of_headAndParams? hhead).isInfix.trans (withoutTerminator_isInfix _)
      exact ⟨name, (Text.infix_of_mem_splitTopLevel hword).trans hin, rfl⟩

/-- **The name that is read stands in the unescaped line**, unless it is that of the class. -/
theorem infix_of_parts? {className line : Text} {parts : Parts}
    (h : parts? className line = some parts) (hne : parts.memberName ≠ className) :
    parts.memberName <:+: line.unescapeAngles := by
  obtain ⟨name, hin, hname⟩ := exists_name_of_parts? h
  rw [hname] at hne ⊢
  by_cases hclass : name = className
  · rw [hclass, memberName, if_pos rfl] at hne
    exact absurd (ite_self className) hne
  · rw [memberName, if_neg hclass] at hne ⊢
    unfold declaredName at hne ⊢
    split at hne
    · exact absurd rfl hne
    · next hinit =>
      rw [if_neg hinit]
      exact (simpleName_isSuffix name).isInfix.trans hin

end Declaration

/-! ## Reading every line -/

/-- The best of the lines by any score: they are gone through with their places, and a line takes
the place of the best so far when its score is higher. -/
def BestLine.bestOf (score : Text → Nat) (lines : List Text) : BestLine :=
  lines.zipIdx.foldl (fun best line => best.better ⟨line.2, score line.1⟩) ⟨0, 0⟩

namespace Member

variable {m : Member}

theorem bestFrom_eq_foldl (m : Member) (index : Nat) (best : BestLine) (lines : List Text) :
    m.bestFrom index best lines =
      (lines.zipIdx index).foldl (fun best line => best.better ⟨line.2, m.lineScore line.1⟩) best := by
  induction lines generalizing index best with
  | nil => rfl
  | cons line lines ih => rw [bestFrom, ih, List.zipIdx_cons, List.foldl_cons]

theorem bestLine_eq_bestOf (m : Member) (lines : List Text) :
    m.bestLine lines = .bestOf m.lineScore lines := bestFrom_eq_foldl m 0 ⟨0, 0⟩ lines

/-- A declaration of a member holds the name of the member, before its escapes are undone as after
it. -/
theorem name_infix_of_parts? (hclass : m.name ≠ m.className) (hl : '<' ∉ m.name)
    (hg : '>' ∉ m.name) {line : Text} {parts : Parts}
    (h : Declaration.parts? m.className line = some parts) (hname : parts.memberName = m.name) :
    m.name <:+: line := by
  have hin := Declaration.infix_of_parts? h (hname ▸ hclass)
  rw [hname] at hin
  exact Text.infix_of_infix_unescapeAngles hin hl hg

theorem lineScore_eq_declarationScore (hclass : m.name ≠ m.className) (hl : '<' ∉ m.name)
    (hg : '>' ∉ m.name) (line : Text) : m.lineScore line = m.declarationScore line := by
  unfold lineScore declarationScore
  split
  · rfl
  · next hnot =>
    split
    · next parts hparts =>
      refine (if_neg fun hagrees => hnot ?_).symm
      exact Text.occursIn_iff.mpr (name_infix_of_parts? hclass hl hg hparts hagrees.1)
    · rfl

/--
**Reading only the lines that hold the name loses nothing**, for a member that is no constructor and
has a name without angle brackets. Every line that is read as a declaration of that name holds it as
it stands, whatever is escaped in the line, and the best line is the one that would be found if every
line were read.
-/
theorem bestLine_eq_bestOf_declarationScore {m : Member} (hclass : m.name ≠ m.className)
    (hl : '<' ∉ m.name) (hg : '>' ∉ m.name) :
    (∀ line parts, Parts.ofDeclaration m.className line = .ok parts → parts.memberName = m.name →
      m.name <:+: line) ∧
    ∀ lines, m.bestLine lines = .bestOf m.declarationScore lines := by
  constructor
  · intro line parts hread hname
    exact name_infix_of_parts? hclass hl hg (ofDeclaration_eq_ok_iff.mp hread) hname
  · intro lines
    have hscore : m.lineScore = m.declarationScore :=
      funext (lineScore_eq_declarationScore hclass hl hg)
    rw [bestLine_eq_bestOf, hscore]

/-- The name stands between escaped brackets and behind that of the class; a field and a method of
another name are read for nothing. -/
theorem bestLine_eq_bestOf_declarationScore_escaped :
    let m : Member := ⟨"a.B".toList, "lt".toList, 1, ["a.C".toList], "void".toList, false⟩
    let line := "public &lt;T extends a.C&gt; void a.B.lt(T);".toList
    let lines := ["private int count;".toList, "public void get(a.C);".toList, line]
    m.name ≠ m.className ∧ '<' ∉ m.name ∧ '>' ∉ m.name ∧
      (∃ parts, Parts.ofDeclaration m.className line = .ok parts ∧ parts.memberName = m.name ∧
        m.name <:+: line) ∧
      m.bestLine lines = ⟨2, 2⟩ ∧ BestLine.bestOf m.declarationScore lines = ⟨2, 2⟩ := by
  intro m line lines
  have hclass : m.name ≠ m.className := by decide
  have hl : '<' ∉ m.name := by decide
  have hg : '>' ∉ m.name := by decide
  obtain ⟨hnamed, hbest⟩ := bestLine_eq_bestOf_declarationScore hclass hl hg
  have hread : (Declaration.parts? m.className line).map Parts.memberName = some m.name := by
    decide +kernel
  obtain ⟨parts, hparts, hname⟩ := Option.map_eq_some_iff.mp hread
  have hok : Parts.ofDeclaration m.className line = .ok parts := ofDeclaration_eq_ok_iff.mpr hparts
  have hfound : m.bestLine lines = ⟨2, 2⟩ := by decide +kernel
  exact ⟨hclass, hl, hg, ⟨parts, hok, hname, hnamed line parts hok hname⟩, hfound,
    hbest lines ▸ hfound⟩

end Member

end JvmSignature
