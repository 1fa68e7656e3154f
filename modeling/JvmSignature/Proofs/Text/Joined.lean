import JvmSignature.Proofs.Text.TopLevel
import Mathlib.Data.List.Infix

/-!
# Splitting as the inverse of joining

The pieces of a list are joined by a separator, with any blanks around it each time. They are split
off again, whatever the separator is, if it stands in no piece outside of angle brackets
(`splitTopLevel_of_isJoin`). The separator may itself be a blank: more of it then stand between two
pieces, and what is between those is empty and dropped.

The loop over a text only keeps the number of brackets that are open. `piecesAt_append` says what
that number is worth: from any depth on, a text in which the separator stands inside of brackets
only is passed over as one piece.

Of a text that nobody joined a split still loses nothing that matters. The pieces stand in it one
behind the other, and around them are separators and blanks (`covers_splitTopLevel`).
-/

namespace JvmSignature.Text

variable {sep : Char} {gap p s : Text} {pieces : List Text}

/-! ## What a list may hold -/

/--
Whether a text may be joined with others: it is not empty, has no blanks at its ends, closes every
angle bracket that it opens and none before it opens it, and has the separator only where more
brackets have been opened than closed.
-/
structure IsListPiece (sep : Char) (p : Text) : Prop where
  ne_nil : p ≠ []
  head : ∀ c, p.head? = some c → isBlank c = false
  last : ∀ c, p.getLast? = some c → isBlank c = false
  closed : p.count '<' = p.count '>'
  opened : ∀ a, a <+: p → a.count '>' ≤ a.count '<'
  inside : ∀ a, a ++ [sep] <+: p → a.count '>' < a.count '<'

instance : DecidablePred (IsListPiece sep) := fun p =>
  decidable_of_iff
    (p ≠ [] ∧ p.head?.all (!isBlank ·) ∧ p.getLast?.all (!isBlank ·) ∧ p.count '<' = p.count '>' ∧
      (∀ a ∈ p.inits, a.count '>' ≤ a.count '<') ∧
      ∀ a ∈ p.inits, a ++ [sep] <+: p → a.count '>' < a.count '<') (by
    simp only [List.mem_inits, Option.all_eq_true, Bool.not_eq_true']
    constructor
    · rintro ⟨hne, hhead, hlast, hclosed, hopened, hinside⟩
      exact ⟨hne, hhead, hlast, hclosed, hopened,
        fun a ha => hinside a ((List.prefix_append a [sep]).trans ha) ha⟩
    · rintro ⟨hne, hhead, hlast, hclosed, hopened, hinside⟩
      exact ⟨hne, hhead, hlast, hclosed, hopened, fun a _ => hinside a⟩)

/-! ## Open brackets -/

/-- A step of the loop counts the brackets, if it does not close one that is not open. -/
theorem angleDepth_add_count {depth : Nat} {c : Char} (h : [c].count '>' ≤ depth + [c].count '<') :
    angleDepth depth c + [c].count '>' = depth + [c].count '<' := by
  by_cases hl : c = '<'
  · subst hl
    simp [angleDepth]
  · by_cases hg : c = '>'
    · subst hg
      simp [angleDepth] at h ⊢
      omega
    · simp [angleDepth, hl, hg]

/--
**A text is passed over as one piece** if it closes no bracket that is not open, counting from the
brackets that are open before it, and holds the separator only where one is open.
-/
theorem piecesAt_append {depth rest : Nat}
    (hopened : ∀ a, a <+: p → a.count '>' ≤ depth + a.count '<')
    (hinside : ∀ a, a ++ [sep] <+: p → a.count '>' < depth + a.count '<')
    (hclosed : depth + p.count '<' = rest + p.count '>') (s : Text) :
    piecesAt sep depth (p ++ s) = (p ++ (piecesAt sep rest s).1, (piecesAt sep rest s).2) := by
  induction p generalizing depth with
  | nil =>
    obtain rfl : depth = rest := by simpa using hclosed
    rfl
  | cons c p ih =>
    have hstep := angleDepth_add_count (hopened [c] (by simp))
    have hcount : ∀ (x : Char) (a : Text), (c :: a).count x = [c].count x + a.count x :=
      fun x a => by rw [← List.singleton_append, List.count_append]
    have hnot : ¬ (c = sep ∧ depth = 0 ∧ c ≠ '<' ∧ c ≠ '>') := by
      rintro ⟨rfl, hdepth, -⟩
      have hopen := hinside [] (by simp)
      simp [hdepth] at hopen
    rw [List.cons_append, piecesAt_cons hnot, ih]
    · rfl
    · intro a ha
      have hcons := hopened (c :: a) (List.cons_prefix_cons.mpr ⟨rfl, ha⟩)
      rw [hcount '>' a, hcount '<' a] at hcons
      omega
    · intro a ha
      have hcons := hinside (c :: a) (List.cons_prefix_cons.mpr ⟨rfl, ha⟩)
      rw [hcount '>' a, hcount '<' a] at hcons
      omega
    · rw [hcount '<' p, hcount '>' p] at hclosed
      omega

theorem IsListPiece.isItem (h : IsListPiece sep p) : IsItem sep p where
  piece := piecesAt_append (by simpa using h.opened) (by simpa using h.inside)
    (by simpa using h.closed)
  head := by
    obtain ⟨c, rest, rfl⟩ := List.exists_cons_of_ne_nil h.ne_nil
    exact ⟨c, rest, rfl, h.head c rfl⟩
  last := by
    obtain ⟨rest, c, rfl⟩ := (List.eq_nil_or_concat p).resolve_left h.ne_nil
    exact ⟨rest, c, List.concat_eq_append, h.last c (by simp)⟩

/-! ## Gaps -/

/-- Whether a text is made of separators and blanks only. -/
def IsGap (sep : Char) (gap : Text) : Prop := ∀ c ∈ gap, c = sep ∨ isBlank c = true

theorem IsGap.append {gap' : Text} (h : IsGap sep gap) (h' : IsGap sep gap') :
    IsGap sep (gap ++ gap') :=
  fun c hc => (List.mem_append.mp hc).elim (h c) (h' c)

theorem isGap_of_blank (h : ∀ c ∈ gap, isBlank c = true) : IsGap sep gap :=
  fun c hc => Or.inr (h c hc)

theorem isGap_sep (sep : Char) : IsGap sep [sep] := fun _ hc => Or.inl (List.mem_singleton.mp hc)

/-- What stands before a separator is a piece of its own. -/
theorem splitTopLevel_cons_sep (hsep : sep ≠ '<' ∧ sep ≠ '>') (s : Text) :
    splitTopLevel sep (sep :: s) = splitTopLevel sep s := by
  have hdepth : angleDepth 0 sep = 0 := by simp [angleDepth, hsep.1, hsep.2]
  have hpieces : piecesAt sep 0 (sep :: s) =
      ([], (piecesAt sep 0 s).1 :: (piecesAt sep 0 s).2) := by
    rw [piecesAt, hdepth]
    simp [hsep.1, hsep.2]
  have htrim : trim [] = [] := rfl
  rw [splitTopLevel, hpieces, splitTopLevel]
  simp [htrim]

/-- A gap in front of a text holds no piece. -/
theorem splitTopLevel_gap_append (hsep : sep ≠ '<' ∧ sep ≠ '>') (h : IsGap sep gap) (s : Text) :
    splitTopLevel sep (gap ++ s) = splitTopLevel sep s := by
  induction gap with
  | nil => rfl
  | cons c gap ih =>
    obtain ⟨hc, hgap⟩ := List.forall_mem_cons.mp h
    rw [List.cons_append, ← ih hgap]
    by_cases hcsep : c = sep
    · rw [hcsep, splitTopLevel_cons_sep hsep]
    · have hblank : ∀ x ∈ [c], isBlank x = true ∧ x ≠ sep := by
        intro x hx
        rw [List.mem_singleton.mp hx]
        exact ⟨hc.resolve_left hcsep, hcsep⟩
      -- The blank becomes part of the first piece, which is trimmed.
      have hpieces := isPiece_blanks hblank (gap ++ s)
      have htrim := trim_blanks_append (fun x hx => (hblank x hx).1) (piecesAt sep 0 (gap ++ s)).1
      rw [List.singleton_append] at hpieces
      rw [splitTopLevel, hpieces, splitTopLevel]
      simp only [List.map_cons, htrim]

/-- **The first piece is split off at the first gap with a separator in it.** -/
theorem splitTopLevel_piece_append (hsep : sep ≠ '<' ∧ sep ≠ '>') (hp : IsItem sep p)
    (hgap : IsGap sep gap) (hmem : sep ∈ gap) (s : Text) :
    splitTopLevel sep (p ++ gap ++ s) = p :: splitTopLevel sep s := by
  obtain ⟨before, after, rfl, hbefore⟩ := List.eq_append_cons_of_mem hmem
  have hblank : ∀ c ∈ before, isBlank c = true ∧ c ≠ sep := by
    intro c hc
    have hne : c ≠ sep := fun he => hbefore (he ▸ hc)
    exact ⟨(hgap c (List.mem_append_left _ hc)).resolve_left hne, hne⟩
  have hafter : IsGap sep after := fun c hc =>
    hgap c (List.mem_append_right _ (List.mem_cons_of_mem _ hc))
  have hnone : ∀ c ∈ ([] : Text), isBlank c = true ∧ c ≠ sep := by simp
  have hfirst := splitTopLevel_append hsep hp hblank hnone (after ++ s)
  rw [splitTopLevel_gap_append hsep hafter] at hfirst
  rw [← hfirst]
  simp

/-! ## Joined pieces -/

/-- Whether a text is made of pieces in this order, with a separator between any two of them and
blanks around it, other ones each time. -/
inductive IsJoin (sep : Char) : (pieces : List Text) → (s : Text) → Prop
  | nil : IsJoin sep [] []
  | singleton (p : Text) : IsJoin sep [p] p
  | cons (p : Text) {before after q : Text} {pieces : List Text} {s : Text}
      (hbefore : ∀ c ∈ before, isBlank c = true) (hafter : ∀ c ∈ after, isBlank c = true)
      (h : IsJoin sep (q :: pieces) s) :
      IsJoin sep (p :: q :: pieces) (p ++ (before ++ sep :: after) ++ s)

/-- **What was joined is split where it was joined.** -/
theorem splitTopLevel_of_isJoin (hsep : sep ≠ '<' ∧ sep ≠ '>')
    (hpieces : ∀ p ∈ pieces, IsItem sep p) (h : IsJoin sep pieces s) :
    splitTopLevel sep s = pieces := by
  induction h with
  | nil => rfl
  | singleton p => exact splitTopLevel_singleton (hpieces p List.mem_cons_self)
  | @cons p before after q pieces s hbefore hafter _ ih =>
    obtain ⟨hp, hrest⟩ := List.forall_mem_cons.mp hpieces
    have hgap : IsGap sep (before ++ sep :: after) :=
      (isGap_of_blank hbefore).append ((isGap_sep sep).append (isGap_of_blank hafter))
    rw [splitTopLevel_piece_append hsep hp hgap (by simp), ih hrest]

/-! ## What a split leaves out -/

/-- Whether pieces stand in a text in this order and without overlap, with gaps before, between and
behind them. -/
inductive Covers (sep : Char) : (pieces : List Text) → (s : Text) → Prop
  | nil {gap : Text} (hgap : IsGap sep gap) : Covers sep [] gap
  | cons {gap p s : Text} {pieces : List Text} (hgap : IsGap sep gap) (h : Covers sep pieces s) :
      Covers sep (p :: pieces) (gap ++ p ++ s)

theorem Covers.gap_append (hgap : IsGap sep gap) (h : Covers sep pieces s) :
    Covers sep pieces (gap ++ s) := by
  cases h with
  | nil hgap' => exact .nil (hgap.append hgap')
  | @cons gap' p s _ hgap' h =>
    have hcons := Covers.cons (p := p) (hgap.append hgap') h
    simpa using hcons

/-- What is trimmed off a text are blanks. -/
theorem exists_eq_trim (s : Text) : ∃ before after, s = before ++ trim s ++ after ∧
    (∀ c ∈ before, isBlank c = true) ∧ ∀ c ∈ after, isBlank c = true := by
  have hblank : ∀ t : Text, ∀ c ∈ t.takeWhile isBlank, isBlank c = true := fun t =>
    List.all_eq_true.mp List.all_takeWhile
  have hend : trimStart s = trim s ++ ((trimStart s).reverse.takeWhile isBlank).reverse := by
    have hsplit := List.takeWhile_append_dropWhile (p := isBlank) (l := (trimStart s).reverse)
    rw [trim, trimEnd, ← List.reverse_append, hsplit, List.reverse_reverse]
  refine ⟨s.takeWhile isBlank, ((trimStart s).reverse.takeWhile isBlank).reverse, ?_, hblank s, ?_⟩
  · rw [List.append_assoc, ← hend]
    exact List.takeWhile_append_dropWhile.symm
  · intro c hc
    exact hblank _ c (List.mem_reverse.mp hc)

/-- A text in front is covered by what is left of it when it is trimmed, if anything is. -/
theorem Covers.trim_append (q : Text) (h : Covers sep pieces s) :
    Covers sep ([trim q].filter (· ≠ []) ++ pieces) (q ++ s) := by
  obtain ⟨before, after, hq, hbefore, hafter⟩ := exists_eq_trim q
  have hrest := h.gap_append (isGap_of_blank hafter)
  by_cases hnil : trim q = []
  · have hgap := hrest.gap_append (isGap_of_blank hbefore)
    rw [hnil, List.append_nil] at hq
    rw [hnil, hq]
    simpa using hgap
  · have hcons := Covers.cons (p := trim q) (isGap_of_blank hbefore) hrest
    rw [← List.append_assoc, ← hq] at hcons
    simpa [hnil] using hcons

/-- The trimmed texts cover what is joined of the texts, less the empty ones. -/
theorem covers_intercalate (sep : Char) (texts : List Text) :
    Covers sep ((texts.map trim).filter (· ≠ [])) ([sep].intercalate texts) := by
  induction texts with
  | nil => exact .nil (by simp [IsGap])
  | cons q texts ih =>
    rw [List.map_cons, ← List.singleton_append, List.filter_append]
    by_cases hnil : texts = []
    · subst hnil
      have hnone : Covers sep [] [] := .nil (by simp [IsGap])
      have hlast := hnone.trim_append q
      simpa using hlast
    · have hcons := (ih.gap_append (isGap_sep sep)).trim_append q
      rwa [List.intercalate_cons_of_ne_nil hnil, List.append_assoc]

/-- **A split leaves out separators and blanks only**, and keeps the order. -/
theorem covers_splitTopLevel (sep : Char) (s : Text) : Covers sep (splitTopLevel sep s) s := by
  have hcovers := covers_intercalate sep ((piecesAt sep 0 s).1 :: (piecesAt sep 0 s).2)
  rwa [intercalate_piecesAt] at hcovers

/--
**A top-level split is the inverse of a join.**

1. Pieces that are joined by a separator other than an angle bracket, with any blanks around it each
   time, are what the split of the joined text answers.
2. What the split of any text answers stands in it in this order and without overlap, and all around
   it is separators and blanks.
-/
theorem splitTopLevel_inverse (sep : Char) :
    (sep ≠ '<' → sep ≠ '>' → ∀ pieces s, (∀ p ∈ pieces, IsListPiece sep p) →
      IsJoin sep pieces s → splitTopLevel sep s = pieces) ∧
    ∀ s, Covers sep (splitTopLevel sep s) s := by
  refine ⟨fun hl hg pieces s hpieces h => ?_, covers_splitTopLevel sep⟩
  exact splitTopLevel_of_isJoin ⟨hl, hg⟩ (fun p hp => (hpieces p hp).isItem) h

/-- A type and a name that are joined by spaces, with a tab before them and a line break behind; one
more space stands inside of the brackets of the type. -/
theorem splitTopLevel_inverse_spaces :
    let type := "java.util.Map<K, V>[]".toList
    let name := "map".toList
    let s := "java.util.Map<K, V>[]\t  \nmap".toList
    (∀ p ∈ [type, name], IsListPiece ' ' p) ∧ IsJoin ' ' [type, name] s ∧
      splitTopLevel ' ' s = [type, name] ∧ Covers ' ' [type, name] s := by
  intro type name s
  have hpieces : ∀ p ∈ [type, name], IsListPiece ' ' p := by
    simp only [List.forall_mem_cons, List.not_mem_nil, false_implies, implies_true, and_true]
    decide +kernel
  have hbefore : ∀ c ∈ ['\t'], isBlank c = true := List.all_eq_true.mp (by decide)
  have hafter : ∀ c ∈ [' ', '\n'], isBlank c = true := List.all_eq_true.mp (by decide)
  have hjoin : IsJoin ' ' [type, name] s := .cons type hbefore hafter (.singleton name)
  obtain ⟨hsplit, hcovers⟩ := splitTopLevel_inverse ' '
  have hback := hsplit (by decide) (by decide) [type, name] s hpieces hjoin
  have hcover := hcovers s
  rw [hback] at hcover
  exact ⟨hpieces, hjoin, hback, hcover⟩

end JvmSignature.Text
