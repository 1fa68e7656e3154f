import JvmSignature.Proofs.Signature.LogLine

/-!
# Which lines are split, and where

A line can be put together from a class, a member, parameters and a return type in many ways,
because names may hold spaces and parentheses. `Splits` says what it means to be one of these ways,
with no order among them. The reader finds a way whenever there is one, and it is the longest: the
class is as long as possible, then the member, then the parameters (`ofLine_eq_longest`).

Each of the three searches is characterized for itself, by what it may find (`IsCut`) and by the
length of what it finds; the whole line then only compares lengths.
-/

namespace JvmSignature.LogLine

variable {α : Type} {ok : Char → Bool} {accept : Text → Option α}

/-! ## One name -/

/-- Whether a text starts with a name of the right characters, with a space behind it and then
something that is accepted. -/
def IsCut (ok : Char → Bool) (accept : Text → Option α) (s name : Text) (found : α) : Prop :=
  (∀ c ∈ name, ok c = true) ∧ ∃ rest, s = name ++ ' ' :: rest ∧ accept rest = some found

theorem not_isCut_nil (name : Text) (found : α) : ¬ IsCut ok accept [] name found := by
  rintro ⟨-, rest, hs, -⟩
  simp at hs

theorem isCut_empty_iff {c : Char} {s : Text} {found : α} :
    IsCut ok accept (c :: s) [] found ↔ c = ' ' ∧ accept s = some found := by
  constructor
  · rintro ⟨-, rest, hs, hfound⟩
    obtain ⟨rfl, rfl⟩ := List.cons.inj hs
    exact ⟨rfl, hfound⟩
  · rintro ⟨rfl, hfound⟩
    exact ⟨by simp, s, rfl, hfound⟩

theorem isCut_cons_iff {c d : Char} {s name : Text} {found : α} :
    IsCut ok accept (c :: s) (d :: name) found ↔
      d = c ∧ ok c = true ∧ IsCut ok accept s name found := by
  constructor
  · rintro ⟨hok, rest, hs, hfound⟩
    obtain ⟨rfl, rfl⟩ := List.cons.inj hs
    obtain ⟨hc, hname⟩ := List.forall_mem_cons.mp hok
    exact ⟨rfl, hc, hname, rest, rfl, hfound⟩
  · rintro ⟨rfl, hc, hname, rest, rfl, hfound⟩
    exact ⟨List.forall_mem_cons.mpr ⟨hc, hname⟩, rest, rfl, hfound⟩

/-- Two cuts of one text behind names of the same length are the same. -/
theorem IsCut.eq_of_length {s name name' : Text} {found found' : α}
    (h : IsCut ok accept s name found) (h' : IsCut ok accept s name' found')
    (hl : name.length = name'.length) : name = name' ∧ found = found' := by
  obtain ⟨-, rest, hs, hfound⟩ := h
  obtain ⟨-, rest', hs', hfound'⟩ := h'
  obtain ⟨hname, hrest⟩ := List.append_inj (hs.symm.trans hs') hl
  obtain ⟨-, rfl⟩ := List.cons.inj hrest
  exact ⟨hname, Option.some.inj (hfound.symm.trans hfound')⟩

/-- What is found is a cut. -/
theorem isCut_of_longestCut {s name : Text} {found : α}
    (h : longestCut ok accept s = some (name, found)) : IsCut ok accept s name found := by
  induction s generalizing name with
  | nil => cases h
  | cons c s ih =>
    rw [longestCut] at h
    split at h
    · next name' found' hlater =>
      cases h
      by_cases hc : ok c = true
      · rw [if_pos hc] at hlater
        exact isCut_cons_iff.mpr ⟨rfl, hc, ih hlater⟩
      · rw [if_neg hc] at hlater
        cases hlater
    · by_cases hc : c = ' '
      · rw [if_pos hc, Option.map_eq_some_iff] at h
        obtain ⟨found', hfound, he⟩ := h
        cases he
        exact isCut_empty_iff.mpr ⟨hc, hfound⟩
      · rw [if_neg hc] at h
        cases h

/-- Where there is a cut, one is found, and no shorter one. -/
theorem IsCut.exists_longestCut {s name : Text} {found : α} (h : IsCut ok accept s name found) :
    ∃ name' found', longestCut ok accept s = some (name', found') ∧
      name.length ≤ name'.length := by
  induction s generalizing name found with
  | nil => exact absurd h (not_isCut_nil name found)
  | cons c s ih =>
    rw [longestCut]
    cases name with
    | nil =>
      -- A cut further on comes first, and this one is left if there is none.
      obtain ⟨hc, hfound⟩ := isCut_empty_iff.mp h
      split
      · next name' found' _ => exact ⟨c :: name', found', rfl, Nat.zero_le _⟩
      · exact ⟨[], found, by simp [hc, hfound], Nat.le_refl _⟩
    | cons d name =>
      obtain ⟨-, hok, hcut⟩ := isCut_cons_iff.mp h
      obtain ⟨name', found', hlater, hlen⟩ := ih hcut
      rw [if_pos hok, hlater]
      exact ⟨c :: name', found', rfl, Nat.succ_le_succ hlen⟩

/-- **The longest name that is not empty is found.** -/
theorem longestName_eq_some_iff {s name : Text} {found : α} :
    longestName ok accept s = some (name, found) ↔
      name ≠ [] ∧ IsCut ok accept s name found ∧
        ∀ name' found', name' ≠ [] → IsCut ok accept s name' found' →
          name'.length ≤ name.length := by
  cases s with
  | nil =>
    constructor
    · intro h
      cases h
    · rintro ⟨-, h, -⟩
      exact absurd h (not_isCut_nil name found)
  | cons c s =>
    constructor
    · intro h
      by_cases hok : ok c = true
      · rw [longestName, if_pos hok, Option.map_eq_some_iff] at h
        obtain ⟨⟨later, found'⟩, hlater, he⟩ := h
        cases he
        refine ⟨List.cons_ne_nil _ _,
          isCut_cons_iff.mpr ⟨rfl, hok, isCut_of_longestCut hlater⟩, ?_⟩
        intro name' found' hne hcut
        obtain ⟨d, name', rfl⟩ := List.exists_cons_of_ne_nil hne
        obtain ⟨-, -, hcut⟩ := isCut_cons_iff.mp hcut
        obtain ⟨later', found'', hlater', hlen⟩ := hcut.exists_longestCut
        rw [hlater] at hlater'
        cases hlater'
        exact Nat.succ_le_succ hlen
      · rw [longestName, if_neg hok] at h
        cases h
    · rintro ⟨hne, hcut, hmax⟩
      obtain ⟨d, name, rfl⟩ := List.exists_cons_of_ne_nil hne
      obtain ⟨rfl, hok, hcut'⟩ := isCut_cons_iff.mp hcut
      obtain ⟨later, found', hlater, hlen⟩ := hcut'.exists_longestCut
      have hlonger : IsCut ok accept (d :: s) (d :: later) found' :=
        isCut_cons_iff.mpr ⟨rfl, hok, isCut_of_longestCut hlater⟩
      have hle := hmax _ _ (List.cons_ne_nil d later) hlonger
      simp only [List.length_cons] at hle
      obtain ⟨rfl, rfl⟩ := hcut'.eq_of_length (isCut_of_longestCut hlater) (by omega)
      rw [longestName, if_pos hok, hlater, Option.map_some]

/-- Where there is a cut behind a name that is not empty, one is found. -/
theorem IsCut.exists_longestName {s name : Text} {found : α} (hne : name ≠ [])
    (h : IsCut ok accept s name found) :
    ∃ name' found', longestName ok accept s = some (name', found') := by
  cases s with
  | nil => exact absurd h (not_isCut_nil name found)
  | cons c s =>
    obtain ⟨d, name, rfl⟩ := List.exists_cons_of_ne_nil hne
    obtain ⟨-, hok, hcut⟩ := isCut_cons_iff.mp h
    obtain ⟨later, found', hlater, -⟩ := hcut.exists_longestCut
    exact ⟨c :: later, found', by rw [longestName, if_pos hok, hlater, Option.map_some]⟩

/-! ## The parameters and the return type -/

/-- Whether a line ends in front of a text. -/
def IsLineEnd (s : Text) : Prop := s = [] ∨ ∃ rest, s = '\n' :: rest

/-- Whether a text starts with a group in parentheses and a return type, up to the end of the
line. -/
structure IsTypes (s params returnType : Text) : Prop where
  group : ∃ inner, params = '(' :: (inner ++ [')'])
  oneLine : '\n' ∉ params ++ returnType
  text : ∃ rest, s = params ++ (returnType ++ rest) ∧ IsLineEnd rest

theorem takeLine_append {s rest : Text} (h : '\n' ∉ s) (hr : IsLineEnd rest) :
    (s ++ rest).takeWhile (· != '\n') = s := by
  have hs : ∀ c ∈ s, (c != '\n') = true := by
    intro c hc
    have hne : c ≠ '\n' := fun he => h (he ▸ hc)
    simp [hne]
  rw [List.takeWhile_append_of_pos hs]
  rcases hr with rfl | ⟨rest, rfl⟩
  · simp
  · simp

/-- Every text goes on to the end of its line. -/
theorem exists_takeLine (s : Text) :
    ∃ rest, s = s.takeWhile (· != '\n') ++ rest ∧ IsLineEnd rest := by
  refine ⟨s.dropWhile (· != '\n'), List.takeWhile_append_dropWhile.symm, ?_⟩
  cases hd : s.dropWhile (· != '\n') with
  | nil => exact Or.inl rfl
  | cons c rest =>
    have hne : s.dropWhile (· != '\n') ≠ [] := by simp [hd]
    have hc := List.head_dropWhile_not (· != '\n') hne
    simp only [hd, List.head_cons, bne_eq_false_iff_eq] at hc
    exact Or.inr ⟨rest, by rw [hc]⟩

theorem newline_not_mem_takeLine (s : Text) : '\n' ∉ s.takeWhile (· != '\n') := by
  intro hm
  have hall := List.all_eq_true.mp (List.all_takeWhile (p := (· != '\n')) (l := s))
  simpa using hall '\n' hm

/-- **The parameters end at the last closing parenthesis of the line.** -/
theorem paramsAndReturn?_eq_some_iff {s params returnType : Text} :
    paramsAndReturn? s = some (params, returnType) ↔
      IsTypes s params returnType ∧ ')' ∉ returnType := by
  constructor
  · intro h
    cases s with
    | nil => cases h
    | cons c s =>
      by_cases hc : c = '('
      · subst hc
        rw [paramsAndReturn?, Option.map_eq_some_iff] at h
        obtain ⟨⟨inner, result⟩, hcut, he⟩ := h
        cases he
        obtain ⟨hline, hclosing⟩ := Text.cutAtLast?_eq_some_iff.mp hcut
        obtain ⟨rest, hs, hend⟩ := exists_takeLine s
        have hnew := newline_not_mem_takeLine s
        rw [hline] at hs hnew
        refine ⟨⟨⟨inner, rfl⟩, ?_, rest, ?_, hend⟩, hclosing⟩
        · simpa using hnew
        · rw [hs]
          simp
      · rw [paramsAndReturn?_cons, if_neg hc] at h
        cases h
  · rintro ⟨⟨⟨inner, rfl⟩, hline, rest, rfl, hend⟩, hclosing⟩
    have hnew : '\n' ∉ inner ++ ')' :: returnType := by simpa using hline
    have htake := takeLine_append hnew hend
    have hs : '(' :: (inner ++ [')']) ++ (returnType ++ rest) =
        '(' :: (inner ++ ')' :: returnType ++ rest) := by
      simp
    rw [hs, paramsAndReturn?, htake, Text.cutAtLast?_eq_some_iff.mpr ⟨rfl, hclosing⟩]
    rfl

/-- Where there are parameters, some are found, and no shorter ones. -/
theorem IsTypes.exists_paramsAndReturn? {s params returnType : Text}
    (h : IsTypes s params returnType) :
    ∃ params' returnType', paramsAndReturn? s = some (params', returnType') ∧
      params.length ≤ params'.length := by
  obtain ⟨⟨inner, rfl⟩, hline, rest, rfl, hend⟩ := h
  cases hcut : Text.cutAtLast? ')' returnType with
  | none =>
    -- No parenthesis is left, so these are the longest parameters.
    have hclosing := Text.cutAtLast?_eq_none_iff.mp hcut
    exact ⟨_, returnType,
      paramsAndReturn?_eq_some_iff.mpr ⟨⟨⟨inner, rfl⟩, hline, rest, rfl, hend⟩, hclosing⟩,
      Nat.le_refl _⟩
  | some found =>
    obtain ⟨more, result⟩ := found
    obtain ⟨rfl, hclosing⟩ := Text.cutAtLast?_eq_some_iff.mp hcut
    refine ⟨'(' :: ((inner ++ ')' :: more) ++ [')']), result,
      paramsAndReturn?_eq_some_iff.mpr ⟨⟨⟨_, rfl⟩, ?_, rest, ?_, hend⟩, hclosing⟩, ?_⟩
    · simpa using hline
    · simp
    · simp only [List.length_cons, List.length_append, List.length_nil]
      omega

/-- Two readings of one text with parameters of the same length are the same. -/
theorem IsTypes.eq_of_length {s params params' returnType returnType' : Text}
    (h : IsTypes s params returnType) (h' : IsTypes s params' returnType')
    (hl : params.length = params'.length) : params = params' ∧ returnType = returnType' := by
  obtain ⟨-, hline, rest, hs, hend⟩ := h
  obtain ⟨-, hline', rest', hs', hend'⟩ := h'
  obtain ⟨hparams, hrest⟩ := List.append_inj (hs.symm.trans hs') hl
  have hr : '\n' ∉ returnType := fun hm => hline (List.mem_append_right _ hm)
  have hr' : '\n' ∉ returnType' := fun hm => hline' (List.mem_append_right _ hm)
  refine ⟨hparams, ?_⟩
  rw [← takeLine_append hr hend, ← takeLine_append hr' hend', hrest]

/-! ## The whole line -/

/--
Whether pieces put a text together: a class without `; [ / < >`, a member without `; [ /`, both not
empty, parameters in parentheses and a return type, with spaces between the first three, up to the
end of the line.
-/
structure Splits (l : LogLine) (s : Text) : Prop where
  className_ne_nil : l.className ≠ []
  classChars : ∀ c ∈ l.className, c ∉ ";[/<>".toList
  memberName_ne_nil : l.memberName ≠ []
  memberChars : ∀ c ∈ l.memberName, c ∉ ";[/".toList
  types : ∃ rest, IsTypes rest l.params l.returnType ∧
    s = l.className ++ ' ' :: (l.memberName ++ ' ' :: rest)

/-- Whether the first pieces are not longer than the second: by the class, where that is as long by
the member, and where that is as long by the parameters. -/
def NotLonger (a b : LogLine) : Prop :=
  a.className.length < b.className.length ∨ a.className.length = b.className.length ∧
    (a.memberName.length < b.memberName.length ∨ a.memberName.length = b.memberName.length ∧
      a.params.length ≤ b.params.length)

theorem isClassChar_iff {c : Char} : isClassChar c = true ↔ c ∉ ";[/<>".toList := by
  simp [isClassChar]

theorem isMemberChar_iff {c : Char} : isMemberChar c = true ↔ c ∉ ";[/".toList := by
  simp [isMemberChar]

/-- Pieces are found when each of them is found by its own search. -/
theorem pieces?_eq_some_iff {s : Text} {l : LogLine} :
    pieces? s = some l ↔
      longestName isClassChar (longestName isMemberChar paramsAndReturn?) s =
        some (l.className, l.memberName, l.params, l.returnType) := by
  rw [pieces?_eq, Option.map_eq_some_iff]
  constructor
  · rintro ⟨⟨owner, member, params, result⟩, hfound, rfl⟩
    exact hfound
  · intro hfound
    exact ⟨_, hfound, rfl⟩

/-- What is found puts the text together. -/
theorem splits_of_pieces? {s : Text} {l : LogLine} (h : pieces? s = some l) :
    l.Splits s ∧ ')' ∉ l.returnType := by
  obtain ⟨hclass, ⟨hclassChars, behind, rfl, hmember⟩, -⟩ :=
    longestName_eq_some_iff.mp (pieces?_eq_some_iff.mp h)
  obtain ⟨hmemberNe, ⟨hmemberChars, rest, rfl, hparams⟩, -⟩ := longestName_eq_some_iff.mp hmember
  obtain ⟨htypes, hclosing⟩ := paramsAndReturn?_eq_some_iff.mp hparams
  exact ⟨⟨hclass, fun c hc => isClassChar_iff.mp (hclassChars c hc), hmemberNe,
    fun c hc => isMemberChar_iff.mp (hmemberChars c hc), rest, htypes, rfl⟩, hclosing⟩

/-- Pieces that put a text together are cuts of it, whatever is found behind their names. -/
theorem Splits.exists_cuts {l : LogLine} {s : Text} (h : l.Splits s) :
    ∃ behind member types, s = l.className ++ ' ' :: behind ∧
      IsCut isClassChar (longestName isMemberChar paramsAndReturn?) s l.className member ∧
      IsCut isMemberChar paramsAndReturn? behind l.memberName types ∧
      l.params.length ≤ types.1.length := by
  obtain ⟨hclass, hclassChars, hmember, hmemberChars, rest, htypes, rfl⟩ := h
  obtain ⟨params, result, hparams, hlen⟩ := htypes.exists_paramsAndReturn?
  have hcut : IsCut isMemberChar paramsAndReturn? (l.memberName ++ ' ' :: rest) l.memberName
      (params, result) :=
    ⟨fun c hc => isMemberChar_iff.mpr (hmemberChars c hc), rest, rfl, hparams⟩
  obtain ⟨member, types, hfound⟩ := hcut.exists_longestName hmember
  exact ⟨_, (member, types), (params, result), rfl,
    ⟨fun c hc => isClassChar_iff.mpr (hclassChars c hc), _, rfl, hfound⟩, hcut, hlen⟩

/-- A text that can be put together is split. -/
theorem Splits.exists_pieces? {l : LogLine} {s : Text} (h : l.Splits s) :
    ∃ found, pieces? s = some found := by
  obtain ⟨behind, member, types, -, hcut, -⟩ := h.exists_cuts
  obtain ⟨owner, ⟨name, params, result⟩, hfound⟩ := hcut.exists_longestName h.className_ne_nil
  exact ⟨⟨owner, name, params, result⟩, pieces?_eq_some_iff.mpr hfound⟩

/-- No other pieces of the text are longer than those that are found. -/
theorem Splits.notLonger_pieces? {l found : LogLine} {s : Text} (h : l.Splits s)
    (hfound : pieces? s = some found) : l.NotLonger found := by
  obtain ⟨behind, member, types, hs, hclass, hmember, hlen⟩ := h.exists_cuts
  obtain ⟨-, hclass', hclassMax⟩ := longestName_eq_some_iff.mp (pieces?_eq_some_iff.mp hfound)
  have hclassLe := hclassMax _ _ h.className_ne_nil hclass
  rcases Nat.lt_or_eq_of_le hclassLe with hlt | heq
  · exact Or.inl hlt
  · refine Or.inr ⟨heq, ?_⟩
    -- The classes are the same, so the members are cuts of one text.
    obtain ⟨-, behind', hs', hmember'⟩ := hclass'
    obtain ⟨-, hbehind⟩ := List.append_inj (hs.symm.trans hs') heq
    obtain ⟨-, rfl⟩ := List.cons.inj hbehind
    obtain ⟨-, hcut', hmemberMax⟩ := longestName_eq_some_iff.mp hmember'
    have hmemberLe := hmemberMax _ _ h.memberName_ne_nil hmember
    rcases Nat.lt_or_eq_of_le hmemberLe with hlt | heq'
    · exact Or.inl hlt
    · obtain ⟨-, rfl⟩ := hmember.eq_of_length hcut' heq'
      exact Or.inr ⟨heq', hlen⟩

/-- Pieces that are not longer than one another are the same. -/
theorem Splits.eq_of_notLonger {a b : LogLine} {s : Text} (ha : a.Splits s) (hb : b.Splits s)
    (hab : a.NotLonger b) (hba : b.NotLonger a) : a = b := by
  unfold NotLonger at hab hba
  obtain ⟨-, -, -, -, rest, htypes, hs⟩ := ha
  obtain ⟨-, -, -, -, rest', htypes', hs'⟩ := hb
  obtain ⟨hclass, hbehind⟩ := List.append_inj (hs.symm.trans hs') (by omega)
  obtain ⟨hmember, hrest⟩ := List.append_inj (List.cons.inj hbehind).2 (by omega)
  obtain ⟨-, rfl⟩ := List.cons.inj hrest
  obtain ⟨hparams, hreturn⟩ := htypes.eq_of_length htypes' (by omega)
  cases a
  cases b
  simp_all

/-- **The pieces of a text are the longest that put it together.** -/
theorem pieces?_eq_some_iff_longest {s : Text} {l : LogLine} :
    pieces? s = some l ↔ l.Splits s ∧ ∀ other : LogLine, other.Splits s → other.NotLonger l := by
  constructor
  · intro h
    exact ⟨(splits_of_pieces? h).1, fun other ho => ho.notLonger_pieces? h⟩
  · rintro ⟨h, hmax⟩
    obtain ⟨found, hfound⟩ := h.exists_pieces?
    have hsplits := (splits_of_pieces? hfound).1
    rw [hfound, h.eq_of_notLonger hsplits (h.notLonger_pieces? hfound) (hmax found hsplits)]

theorem pieces?_eq_none_iff {s : Text} : pieces? s = none ↔ ∀ l : LogLine, ¬ l.Splits s := by
  constructor
  · intro h l hl
    obtain ⟨found, hfound⟩ := hl.exists_pieces?
    rw [h] at hfound
    cases hfound
  · intro h
    cases hs : pieces? s with
    | none => rfl
    | some l => exact absurd (splits_of_pieces? hs).1 (h l)

/--
**A line is split exactly when it can be put together, and then into the longest pieces.** The
brackets of the line are unescaped first. No `)` is left for the return type; a line that cannot be
put together is a fault that carries the line as it was.
-/
theorem ofLine_eq_longest (line : Text) :
    ((∃ l, ofLine line = .ok l) ↔ ∃ l : LogLine, l.Splits line.unescapeAngles) ∧
    (∀ l, ofLine line = .ok l ↔ l.Splits line.unescapeAngles ∧
      ∀ other : LogLine, other.Splits line.unescapeAngles → other.NotLonger l) ∧
    (∀ l, ofLine line = .ok l → ')' ∉ l.returnType) ∧
    ∀ e, ofLine line = .error e ↔
      (∀ l : LogLine, ¬ l.Splits line.unescapeAngles) ∧ e = .malformed line := by
  have hok : ∀ l, ofLine line = .ok l ↔ pieces? line.unescapeAngles = some l := by
    intro l
    unfold ofLine
    cases pieces? line.unescapeAngles <;> simp
  have herror : ∀ e, ofLine line = .error e ↔
      pieces? line.unescapeAngles = none ∧ e = .malformed line := by
    intro e
    unfold ofLine
    cases pieces? line.unescapeAngles <;> simp [eq_comm]
  refine ⟨?_, ?_, ?_, ?_⟩
  · simp only [hok]
    constructor
    · rintro ⟨l, hl⟩
      exact ⟨l, (splits_of_pieces? hl).1⟩
    · rintro ⟨l, hl⟩
      exact hl.exists_pieces?
  · intro l
    rw [hok, pieces?_eq_some_iff_longest]
  · intro l hl
    exact (splits_of_pieces? ((hok l).mp hl)).2
  · intro e
    rw [herror, pieces?_eq_none_iff]

/-- A name may hold spaces and parentheses: the class takes what it can. -/
example : pieces? "a b (c) (d)e".toList = some ⟨"a b".toList, "(c)".toList, "(d)".toList, ['e']⟩ := by
  decide

end JvmSignature.LogLine
