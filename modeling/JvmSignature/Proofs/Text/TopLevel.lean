import JvmSignature.Proofs.Text.Cuts
import JvmSignature.Text.TopLevel

/-!
# Lists that are split where they were joined

A list is split at the separators outside of angle brackets. What stands between two of them is
given back as it was if it is a *piece*: what follows it is split as if it stood alone
(`IsPiece`). Pieces are texts without the separator, groups in angle brackets, whatever these hold,
and what is put together from pieces.

Everything about splitting follows from one equation, `splitTopLevel_append`: the first item is split
off at the first separator, whatever blanks stand around it.
-/

namespace JvmSignature.Text

/-! ## Groups in angle brackets -/

/-- Whether every angle bracket of a text is closed in the text, and none that was not opened. -/
inductive IsBalanced : Text → Prop
  | nil : IsBalanced []
  | char {c : Char} {s : Text} : c ≠ '<' → c ≠ '>' → IsBalanced s → IsBalanced (c :: s)
  | group {inner s : Text} : IsBalanced inner → IsBalanced s →
      IsBalanced ('<' :: (inner ++ '>' :: s))

theorem isBalanced_of_forall {s : Text} (h : ∀ c ∈ s, c ≠ '<' ∧ c ≠ '>') : IsBalanced s := by
  induction s with
  | nil => exact .nil
  | cons c s ih =>
    obtain ⟨⟨hl, hg⟩, hs⟩ := List.forall_mem_cons.mp h
    exact .char hl hg (ih hs)

theorem IsBalanced.append {s t : Text} (hs : IsBalanced s) (ht : IsBalanced t) :
    IsBalanced (s ++ t) := by
  induction hs with
  | nil => exact ht
  | char hl hg _ ih => exact .char hl hg ih
  | group hi _ _ ih =>
    have hg := IsBalanced.group hi ih
    simpa using hg

theorem isBalanced_group {inner : Text} (h : IsBalanced inner) :
    IsBalanced ('<' :: (inner ++ ['>'])) := .group h .nil

/-! ## Pieces -/

/-- A character that does not separate is put in front of the first piece. -/
theorem piecesAt_cons {sep c : Char} {depth : Nat}
    (h : ¬ (c = sep ∧ depth = 0 ∧ c ≠ '<' ∧ c ≠ '>')) (s : Text) :
    piecesAt sep depth (c :: s) =
      (c :: (piecesAt sep (angleDepth depth c) s).1, (piecesAt sep (angleDepth depth c) s).2) := by
  rw [piecesAt]
  simp only [if_neg h]

/-- Nothing separates inside of angle brackets. -/
theorem IsBalanced.piecesAt_succ {s : Text} (h : IsBalanced s) (sep : Char) (depth : Nat)
    (t : Text) :
    piecesAt sep (depth + 1) (s ++ t) =
      (s ++ (piecesAt sep (depth + 1) t).1, (piecesAt sep (depth + 1) t).2) := by
  induction h generalizing depth t with
  | nil => rfl
  | @char c s hl hg _ ih =>
    have hd : angleDepth (depth + 1) c = depth + 1 := by simp [angleDepth, hl, hg]
    rw [List.cons_append, piecesAt_cons (by simp), hd, ih]
    rfl
  | @group inner s _ _ ihi ihs =>
    have hopen : angleDepth (depth + 1) '<' = depth + 1 + 1 := rfl
    have hclose : angleDepth (depth + 1 + 1) '>' = depth + 1 := rfl
    rw [List.cons_append, List.append_assoc, List.cons_append, piecesAt_cons (by simp), hopen, ihi,
      piecesAt_cons (by simp), hclose, ihs]
    simp

/-- Whether what follows a text is split as if it stood alone: the text holds no separator outside
of angle brackets, and closes the brackets that it opens. -/
def IsPiece (sep : Char) (p : Text) : Prop :=
  ∀ s, piecesAt sep 0 (p ++ s) = (p ++ (piecesAt sep 0 s).1, (piecesAt sep 0 s).2)

theorem isPiece_nil (sep : Char) : IsPiece sep [] := fun _ => rfl

theorem IsPiece.append {sep : Char} {p q : Text} (hp : IsPiece sep p) (hq : IsPiece sep q) :
    IsPiece sep (p ++ q) := by
  intro s
  rw [List.append_assoc, hp, hq, List.append_assoc]

theorem isPiece_of_forall {sep : Char} {p : Text}
    (h : ∀ c ∈ p, c ≠ sep ∧ c ≠ '<' ∧ c ≠ '>') : IsPiece sep p := by
  induction p with
  | nil => exact isPiece_nil sep
  | cons c p ih =>
    obtain ⟨⟨hsep, hl, hg⟩, hp⟩ := List.forall_mem_cons.mp h
    intro s
    have hd : angleDepth 0 c = 0 := by simp [angleDepth, hl, hg]
    rw [List.cons_append, piecesAt_cons (fun hc => hsep hc.1), hd, ih hp]
    rfl

/-- A group in angle brackets is a piece, whatever it holds. -/
theorem isPiece_group {sep : Char} {inner : Text} (h : IsBalanced inner) :
    IsPiece sep ('<' :: (inner ++ ['>'])) := by
  intro s
  have hopen : angleDepth 0 '<' = 0 + 1 := rfl
  have hclose : angleDepth (0 + 1) '>' = 0 := rfl
  have hs : '<' :: (inner ++ ['>']) ++ s = '<' :: (inner ++ '>' :: s) := by simp
  rw [hs, piecesAt_cons (by simp), hopen, h.piecesAt_succ, piecesAt_cons (by simp), hclose]
  simp

/-- **The separators put back between the pieces give the text again.** -/
theorem intercalate_piecesAt (sep : Char) (depth : Nat) (s : Text) :
    [sep].intercalate ((piecesAt sep depth s).1 :: (piecesAt sep depth s).2) = s := by
  induction s generalizing depth with
  | nil => rfl
  | cons c s ih =>
    have hrest := ih (angleDepth depth c)
    by_cases hc : c = sep ∧ depth = 0 ∧ c ≠ '<' ∧ c ≠ '>'
    · have hcut : piecesAt sep depth (c :: s) =
          ([], (piecesAt sep (angleDepth depth c) s).1 ::
            (piecesAt sep (angleDepth depth c) s).2) := by
        rw [piecesAt]
        exact if_pos hc
      rw [hcut, List.intercalate_cons_of_ne_nil (List.cons_ne_nil _ _), hrest, hc.1]
      rfl
    · rw [piecesAt_cons hc]
      cases hpieces : (piecesAt sep (angleDepth depth c) s).2 with
      | nil =>
        rw [hpieces, List.intercalate_singleton] at hrest
        rw [List.intercalate_singleton, hrest]
      | cons p ps =>
        rw [hpieces, List.intercalate_cons_of_ne_nil (List.cons_ne_nil _ _)] at hrest
        rw [List.intercalate_cons_of_ne_nil (List.cons_ne_nil _ _), List.cons_append,
          List.cons_append, hrest]

/-- **What a split answers stands in the text.** -/
theorem infix_of_mem_splitTopLevel {sep : Char} {s p : Text} (h : p ∈ splitTopLevel sep s) :
    p <:+: s := by
  obtain ⟨q, hq, rfl⟩ := List.mem_map.mp (List.mem_filter.mp h).1
  have hin := infix_intercalate_of_mem [sep] hq
  rw [intercalate_piecesAt] at hin
  exact (trim_isInfix q).trans hin

/-! ## Lists -/

/-- What may stand in a list: a piece that neither starts nor ends with a blank. -/
structure IsItem (sep : Char) (s : Text) : Prop where
  piece : IsPiece sep s
  head : ∃ c rest, s = c :: rest ∧ isBlank c = false
  last : ∃ rest c, s = rest ++ [c] ∧ isBlank c = false

theorem IsItem.ne_nil {sep : Char} {s : Text} (h : IsItem sep s) : s ≠ [] := by
  obtain ⟨c, rest, rfl, -⟩ := h.head
  exact List.cons_ne_nil c rest

/-- A text that does not end with a blank may go on, if what is behind it does not end with one. -/
theorem exists_last_append {s t : Text} (hs : ∃ rest c, s = rest ++ [c] ∧ isBlank c = false)
    (ht : ∀ c, t.getLast? = some c → isBlank c = false) :
    ∃ rest c, s ++ t = rest ++ [c] ∧ isBlank c = false := by
  rcases List.eq_nil_or_concat t with rfl | ⟨rest, c, rfl⟩
  · rw [List.append_nil]
    exact hs
  · exact ⟨s ++ rest, c, by simp, ht c (by simp)⟩

/-- More may stand behind an item, if it is a piece and does not end with a blank. -/
theorem IsItem.append {sep : Char} {s t : Text} (hs : IsItem sep s) (ht : IsPiece sep t)
    (hlast : ∀ c, t.getLast? = some c → isBlank c = false) : IsItem sep (s ++ t) where
  piece := hs.piece.append ht
  head := by
    obtain ⟨c, rest, rfl, hc⟩ := hs.head
    exact ⟨c, rest ++ t, rfl, hc⟩
  last := exists_last_append hs.last hlast

theorem IsItem.append_item {sep : Char} {s glue t : Text} (hs : IsItem sep s)
    (hg : IsPiece sep glue) (ht : IsItem sep t) : IsItem sep (s ++ (glue ++ t)) := by
  refine hs.append (hg.append ht.piece) fun c hc => ?_
  obtain ⟨rest, d, rfl, hd⟩ := ht.last
  rw [← List.append_assoc, List.getLast?_concat] at hc
  exact Option.some.inj hc ▸ hd

theorem isItem_intercalate {sep : Char} {glue : Text} {items : List Text} (hne : items ≠ [])
    (hg : IsPiece sep glue) (h : ∀ i ∈ items, IsItem sep i) :
    IsItem sep (glue.intercalate items) := by
  induction items with
  | nil => exact absurd rfl hne
  | cons item items ih =>
    obtain ⟨hi, hrest⟩ := List.forall_mem_cons.mp h
    by_cases hitems : items = []
    · rw [hitems, List.intercalate_singleton]
      exact hi
    · rw [List.intercalate_cons_of_ne_nil hitems, List.append_assoc]
      exact hi.append_item hg (ih hitems hrest)

/-- Blanks behind a text are trimmed, and no more. -/
theorem trim_append_blanks {s : Text} (blanks : Text)
    (hhead : ∃ c rest, s = c :: rest ∧ isBlank c = false)
    (hlast : ∃ rest c, s = rest ++ [c] ∧ isBlank c = false)
    (hb : ∀ c ∈ blanks, isBlank c = true) : trim (s ++ blanks) = s := by
  have hstart : trimStart (s ++ blanks) = s ++ blanks := by
    obtain ⟨c, rest, rfl, hc⟩ := hhead
    exact List.dropWhile_cons_of_neg (by simp [hc])
  have hend : trimEnd (s ++ blanks) = s := by
    obtain ⟨rest, c, rfl, hc⟩ := hlast
    have hdrop : (rest ++ [c] ++ blanks).reverse.dropWhile isBlank = (rest ++ [c]).reverse := by
      rw [List.reverse_append, List.dropWhile_append_of_pos (by simpa using hb),
        List.reverse_append]
      exact List.dropWhile_cons_of_neg (by simp [hc])
    rw [trimEnd, hdrop, List.reverse_reverse]
  rw [trim, hstart, hend]

theorem IsItem.trim {sep : Char} {s : Text} (h : IsItem sep s) : s.trim = s := by
  have hs := trim_append_blanks [] h.head h.last (by simp)
  rwa [List.append_nil] at hs

/-- Blanks in front of a text are trimmed. -/
theorem trim_blanks_append {blanks : Text} (h : ∀ c ∈ blanks, isBlank c = true) (s : Text) :
    trim (blanks ++ s) = trim s := by
  have hstart : trimStart (blanks ++ s) = trimStart s := List.dropWhile_append_of_pos h
  rw [trim, hstart, trim]

/-- A text of blanks without the separator is a piece. -/
theorem isPiece_blanks {sep : Char} {blanks : Text}
    (h : ∀ c ∈ blanks, isBlank c = true ∧ c ≠ sep) : IsPiece sep blanks := by
  refine isPiece_of_forall fun c hc => ?_
  obtain ⟨hblank, hsep⟩ := h c hc
  refine ⟨hsep, ?_, ?_⟩
  · rintro rfl
    exact absurd hblank (by decide)
  · rintro rfl
    exact absurd hblank (by decide)

/-- **The first item is split off at the first separator**, whatever blanks stand around it. -/
theorem splitTopLevel_append {sep : Char} {item before after : Text} (hsep : sep ≠ '<' ∧ sep ≠ '>')
    (h : IsItem sep item) (hbefore : ∀ c ∈ before, isBlank c = true ∧ c ≠ sep)
    (hafter : ∀ c ∈ after, isBlank c = true ∧ c ≠ sep) (s : Text) :
    splitTopLevel sep (item ++ before ++ sep :: (after ++ s)) = item :: splitTopLevel sep s := by
  have hd : angleDepth 0 sep = 0 := by simp [angleDepth, hsep.1, hsep.2]
  have hpieces : piecesAt sep 0 (item ++ before ++ sep :: (after ++ s)) =
      (item ++ before, (after ++ (piecesAt sep 0 s).1) :: (piecesAt sep 0 s).2) := by
    rw [h.piece.append (isPiece_blanks hbefore), piecesAt, hd, isPiece_blanks hafter]
    simp [hsep.1, hsep.2]
  have hfirst : trim (item ++ before) = item :=
    trim_append_blanks before h.head h.last fun c hc => (hbefore c hc).1
  have hsecond : trim (after ++ (piecesAt sep 0 s).1) = trim (piecesAt sep 0 s).1 :=
    trim_blanks_append (fun c hc => (hafter c hc).1) _
  rw [splitTopLevel, hpieces]
  simp only [List.map_cons, hfirst, hsecond, splitTopLevel]
  rw [List.filter_cons_of_pos (by simpa using h.ne_nil)]

theorem splitTopLevel_singleton {sep : Char} {item : Text} (h : IsItem sep item) :
    splitTopLevel sep item = [item] := by
  have hpieces : piecesAt sep 0 item = (item, []) := by
    have hp := h.piece []
    simpa [piecesAt] using hp
  rw [splitTopLevel, hpieces]
  simp [h.trim, h.ne_nil]

/-- **A list that was joined is split where it was joined.** -/
theorem splitTopLevel_intercalate {sep : Char} {items : List Text} (before after : Text)
    (hsep : sep ≠ '<' ∧ sep ≠ '>') (hbefore : ∀ c ∈ before, isBlank c = true ∧ c ≠ sep)
    (hafter : ∀ c ∈ after, isBlank c = true ∧ c ≠ sep) (h : ∀ i ∈ items, IsItem sep i) :
    splitTopLevel sep ((before ++ sep :: after).intercalate items) = items := by
  induction items with
  | nil => simp [splitTopLevel, piecesAt, trim, trimStart, trimEnd]
  | cons item items ih =>
    obtain ⟨hi, hrest⟩ := List.forall_mem_cons.mp h
    by_cases hnil : items = []
    · rw [hnil, List.intercalate_singleton, splitTopLevel_singleton hi]
    · have hsplit := splitTopLevel_append hsep hi hbefore hafter
        ((before ++ sep :: after).intercalate items)
      rw [ih hrest] at hsplit
      rw [List.intercalate_cons_of_ne_nil hnil, ← hsplit]
      simp

/-- A single space is a blank. -/
theorem isBlank_of_mem_space {sep : Char} (hsep : sep ≠ ' ') :
    ∀ c ∈ [' '], isBlank c = true ∧ c ≠ sep := by
  intro c hc
  rw [List.mem_singleton.mp hc]
  exact ⟨by decide, hsep.symm⟩

/-- A list that was joined by commas is split at them. -/
theorem splitTopLevel_commas {items : List Text} (h : ∀ i ∈ items, IsItem ',' i) :
    splitTopLevel ',' (", ".toList.intercalate items) = items :=
  splitTopLevel_intercalate [] [' '] (by decide) (by simp) (isBlank_of_mem_space (by decide)) h

/-- A list that was joined by ampersands is split at them. -/
theorem splitTopLevel_ampersands {items : List Text} (h : ∀ i ∈ items, IsItem '&' i) :
    splitTopLevel '&' (" & ".toList.intercalate items) = items :=
  splitTopLevel_intercalate [' '] [' '] (by decide) (isBlank_of_mem_space (by decide))
    (isBlank_of_mem_space (by decide)) h

end JvmSignature.Text
