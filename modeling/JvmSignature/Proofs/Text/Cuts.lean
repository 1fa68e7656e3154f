import JvmSignature.Signature.Comment
import JvmSignature.Text.Entity

/-!
# Cuts that leave a text as it was

The readers trim, unescape and unquote. Each of these gives back what was put together: a text that
does not start or end with a blank is not trimmed, an escaped text is unescaped and a quoted one
unquoted.
-/

namespace JvmSignature.Text

/-! ## Joined texts -/

/-- What holds of the pieces of a text and of what joins them, and of two texts together when it
holds of each, holds of the text. -/
theorem intercalate_induction {p : Text → Prop} (hnil : p [])
    (happend : ∀ s t, p s → p t → p (s ++ t)) {glue : Text} {items : List Text} (hg : p glue)
    (h : ∀ i ∈ items, p i) : p (glue.intercalate items) := by
  induction items with
  | nil => exact hnil
  | cons item items ih =>
    obtain ⟨hi, hrest⟩ := List.forall_mem_cons.mp h
    by_cases hitems : items = []
    · rw [hitems, List.intercalate_singleton]
      exact hi
    · rw [List.intercalate_cons_of_ne_nil hitems]
      exact happend _ _ (happend _ _ hi hg) (ih hrest)

/-- More pieces are joined on behind the first ones. -/
theorem intercalate_append {glue : Text} (first : List Text) {rest : List Text} (h : rest ≠ []) :
    glue.intercalate (first ++ rest) =
      (if first = [] then [] else glue.intercalate first ++ glue) ++ glue.intercalate rest := by
  induction first with
  | nil => rfl
  | cons item items ih =>
    rw [List.cons_append, List.intercalate_cons_of_ne_nil (by simp [h]), ih]
    by_cases hitems : items = []
    · simp [hitems]
    · simp [hitems, List.intercalate_cons_of_ne_nil]

/-- A piece stands in the text that is put together. -/
theorem infix_intercalate_of_mem (glue : Text) {p : Text} {items : List Text} (h : p ∈ items) :
    p <:+: glue.intercalate items := by
  obtain ⟨first, rest, rfl⟩ := List.append_of_mem h
  rw [intercalate_append first (List.cons_ne_nil p rest)]
  refine List.IsInfix.trans ?_ (List.suffix_append _ _).isInfix
  by_cases hrest : rest = []
  · simp [hrest]
  · rw [List.intercalate_cons_of_ne_nil hrest, List.append_assoc]
    exact (List.prefix_append _ _).isInfix

/-! ## Trimming -/

theorem trimStart_eq_self {s : Text} (h : ∀ c, s.head? = some c → isBlank c = false) :
    trimStart s = s := by
  cases s with
  | nil => rfl
  | cons c s => exact List.dropWhile_cons_of_neg (by simp [h c rfl])

theorem trimEnd_eq_self {s : Text} (h : ∀ c, s.getLast? = some c → isBlank c = false) :
    trimEnd s = s := by
  have hr : trimStart s.reverse = s.reverse := by
    refine trimStart_eq_self fun c hc => h c ?_
    rwa [List.head?_reverse] at hc
  rw [trimEnd, ← trimStart, hr, List.reverse_reverse]

/-- A text without blanks at its ends is not trimmed. -/
theorem trim_eq_self {s : Text} (hhead : ∀ c, s.head? = some c → isBlank c = false)
    (hlast : ∀ c, s.getLast? = some c → isBlank c = false) : trim s = s := by
  rw [trim, trimStart_eq_self hhead, trimEnd_eq_self hlast]

/-- What is left of a trimmed text stands in it. -/
theorem trim_isInfix (s : Text) : trim s <:+: s :=
  (trimEnd_isPrefix _).isInfix.trans (trimStart_isSuffix s).isInfix

/-- A text without blanks is not trimmed. -/
theorem trim_eq_self_of_forall {s : Text} (h : ∀ c ∈ s, isBlank c = false) : trim s = s :=
  trim_eq_self (fun c hc => h c (List.mem_of_head? hc))
    (fun c hc => h c (List.mem_of_getLast? hc))

/-- A text that ends with no blank keeps its end. -/
theorem dropWhile_isBlank_concat (rest : Text) {c : Char} (hc : isBlank c = false) :
    (rest ++ [c]).dropWhile isBlank = rest.dropWhile isBlank ++ [c] := by
  rw [List.dropWhile_append]
  split
  · next h =>
    rw [List.isEmpty_iff.mp h, List.nil_append, List.dropWhile_cons_of_neg (by simp [hc])]
  · rfl

theorem trim_concat (rest : Text) {c : Char} (hc : isBlank c = false) :
    trim (rest ++ [c]) = rest.dropWhile isBlank ++ [c] := by
  rw [trim, trimStart, dropWhile_isBlank_concat rest hc]
  refine trimEnd_eq_self fun x hx => ?_
  rw [List.getLast?_concat, Option.some_inj] at hx
  rw [← hx, hc]

/-- A text that starts with no blank keeps its start. -/
theorem trim_cons {c : Char} (hc : isBlank c = false) (rest : Text) :
    trim (c :: rest) = c :: trimEnd rest := by
  have hstart : trimStart (c :: rest) = c :: rest := List.dropWhile_cons_of_neg (by simp [hc])
  rw [trim, hstart, trimEnd, List.reverse_cons, dropWhile_isBlank_concat _ hc,
    List.reverse_append]
  rfl

/-- No trimmed text starts with a blank. -/
theorem not_blank_of_trim_eq_cons {s rest : Text} {c : Char} (h : trim s = c :: rest) :
    isBlank c = false := by
  obtain ⟨behind, hstart⟩ := trimEnd_isPrefix (trimStart s)
  rw [← trim, h] at hstart
  have hhead := List.head?_dropWhile_not isBlank s
  rw [← trimStart, ← hstart] at hhead
  exact hhead

/-- What a predicate that slashes and dots do not differ in says of a character, it says of it once
slashes are turned. -/
theorem comp_dotted {p : Char → Bool} (h : p '/' = p '.') :
    (p ∘ fun c => if c = '/' then '.' else c) = p := by
  funext c
  by_cases hc : c = '/'
  · rw [Function.comp_apply, if_pos hc, hc, h]
  · rw [Function.comp_apply, if_neg hc]

theorem dotted_dropWhile {p : Char → Bool} (h : p '/' = p '.') (s : Text) :
    dotted (s.dropWhile p) = (dotted s).dropWhile p := by
  rw [dotted, dotted, List.dropWhile_map, comp_dotted h]

theorem dotted_takeWhile {p : Char → Bool} (h : p '/' = p '.') (s : Text) :
    dotted (s.takeWhile p) = (dotted s).takeWhile p := by
  rw [dotted, dotted, List.takeWhile_map, comp_dotted h]

theorem dotted_reverse (s : Text) : dotted s.reverse = (dotted s).reverse := List.map_reverse

/-- Slashes and dots are no blanks, so it is the same to trim before the slashes are turned. -/
theorem dotted_trim (s : Text) : dotted (trim s) = trim (dotted s) := by
  have hstart : ∀ t : Text, dotted (trimStart t) = trimStart (dotted t) :=
    dotted_dropWhile (by decide)
  have hend : ∀ t : Text, dotted (trimEnd t) = trimEnd (dotted t) := by
    intro t
    rw [trimEnd, dotted_reverse, ← trimStart, hstart, dotted_reverse]
    rfl
  rw [trim, hend, hstart, trim]

/-! ## Occurrences -/

/-- A piece of text occurs where it stands between two others. -/
theorem occursIn_iff {piece s : Text} : piece.occursIn s = true ↔ piece <:+: s := by
  rw [occursIn, Option.isSome_iff_exists]
  constructor
  · rintro ⟨⟨a, b⟩, h⟩
    exact ⟨a, b, (eq_of_cut? h).symm⟩
  · intro h
    induction s with
    | nil =>
      rw [List.eq_nil_of_infix_nil h]
      exact ⟨([], []), rfl⟩
    | cons c s ih =>
      rw [cut?]
      cases hp : piece.isPrefixOf? (c :: s) with
      | some after => exact ⟨([], after), rfl⟩
      | none =>
        rcases List.infix_cons_iff.mp h with ⟨after, hafter⟩ | h
        · rw [isPrefixOf?_eq_some_iff.mpr hafter.symm] at hp
          cases hp
        · obtain ⟨⟨a, b⟩, hab⟩ := ih h
          exact ⟨(c :: a, b), by rw [hab]; rfl⟩

/-- A piece does not occur where its first character does not stand. -/
theorem cut?_eq_none_of_notMem {c : Char} {piece s : Text} (h : c ∉ s) :
    cut? (c :: piece) s = none := by
  rw [Option.eq_none_iff_forall_ne_some]
  rintro ⟨a, b⟩ hab
  exact h (by simp [eq_of_cut? hab])

/-- The first occurrence of a piece is where its first character stands first. -/
theorem cut?_append_of_notMem {c : Char} {piece a : Text} (h : c ∉ a) (b : Text) :
    cut? (c :: piece) (a ++ (c :: piece ++ b)) = some (a, b) := by
  induction a with
  | nil =>
    rw [List.nil_append, List.cons_append, cut?, ← List.cons_append,
      isPrefixOf?_eq_some_iff.mpr rfl]
  | cons d a ih =>
    simp only [List.mem_cons, not_or] at h
    have hstart : (c :: piece).isPrefixOf? (d :: (a ++ (c :: piece ++ b))) = none := by
      rw [Option.eq_none_iff_forall_ne_some]
      intro r hr
      exact h.1 (List.cons.inj (isPrefixOf?_eq_some_iff.mp hr)).1.symm
    rw [List.cons_append, cut?, hstart, ih h.2]
    rfl

/-! ## Slashes -/

/-- It is the same to turn the dots into slashes before the slashes are turned. -/
theorem dotted_slashed (s : Text) : dotted (slashed s) = dotted s := by
  rw [dotted, slashed, List.map_map]
  refine List.map_congr_left fun c _ => ?_
  by_cases hd : c = '.'
  · simp [hd]
  · simp [hd]

/-- Only a slash is turned, and only into a dot. -/
theorem turned_eq_iff {c d : Char} (hs : d ≠ '/') (hd : d ≠ '.') :
    (if c = '/' then '.' else c) = d ↔ c = d := by
  by_cases h : c = '/'
  · rw [if_pos h, h]
    exact iff_of_false hd.symm hs.symm
  · rw [if_neg h]

/-- Slashes and dots apart, the same characters stand in a text before and after its slashes are
turned. -/
theorem mem_dotted_iff {s : Text} {c : Char} (hs : c ≠ '/') (hd : c ≠ '.') :
    c ∈ dotted s ↔ c ∈ s := by
  rw [dotted, List.mem_map]
  constructor
  · rintro ⟨x, hx, he⟩
    exact (turned_eq_iff hs hd).mp he ▸ hx
  · intro h
    exact ⟨c, h, if_neg hs⟩

theorem not_blank_of_dotted {s : Text} (h : ∀ c ∈ dotted s, isBlank c = false) {c : Char}
    (hc : c ∈ s) : isBlank c = false := by
  by_cases hs : c = '/'
  · rw [hs]
    decide
  · exact h c (List.mem_map.mpr ⟨c, hc, if_neg hs⟩)

theorem dotted_eq_append_iff {s a b : Text} :
    dotted s = a ++ b ↔ ∃ a' b', s = a' ++ b' ∧ dotted a' = a ∧ dotted b' = b :=
  List.map_eq_append_iff

/-- What is neither a slash nor a dot stands where it stood before the slashes were turned. -/
theorem dotted_eq_cons_iff {s t : Text} {c : Char} (hs : c ≠ '/') (hd : c ≠ '.') :
    dotted s = c :: t ↔ ∃ t', s = c :: t' ∧ dotted t' = t := by
  rw [dotted, List.map_eq_cons_iff]
  constructor
  · rintro ⟨x, t', rfl, hx, rfl⟩
    exact ⟨t', by rw [(turned_eq_iff hs hd).mp hx], rfl⟩
  · rintro ⟨t', rfl, rfl⟩
    exact ⟨c, t', rfl, if_neg hs, rfl⟩

/-! ## Escaping -/

/-- A character as a log writes it: angle brackets are escaped. -/
def escapeAngle (c : Char) : Text :=
  if c = '<' then "&lt;".toList else if c = '>' then "&gt;".toList else [c]

/-- A text as a log writes it. -/
def escapeAngles (s : Text) : Text := s.flatMap escapeAngle

theorem escapeAngles_append (s t : Text) :
    escapeAngles (s ++ t) = escapeAngles s ++ escapeAngles t := List.flatMap_append

/-- Whether a line is a text in which some of the angle brackets are escaped. -/
inductive IsEscapeOf : (line s : Text) → Prop
  | nil : IsEscapeOf [] []
  | keep (c : Char) {line s : Text} : IsEscapeOf line s → IsEscapeOf (c :: line) (c :: s)
  | less {line s : Text} : IsEscapeOf line s → IsEscapeOf ("&lt;".toList ++ line) ('<' :: s)
  | greater {line s : Text} : IsEscapeOf line s → IsEscapeOf ("&gt;".toList ++ line) ('>' :: s)

theorem isEscapeOf_self (s : Text) : IsEscapeOf s s := by
  induction s with
  | nil => exact .nil
  | cons c s ih => exact .keep c ih

theorem isEscapeOf_escapeAngles (s : Text) : IsEscapeOf (escapeAngles s) s := by
  induction s with
  | nil => exact .nil
  | cons c s ih =>
    rw [escapeAngles, List.flatMap_cons, ← escapeAngles, escapeAngle]
    by_cases hl : c = '<'
    · subst hl
      exact .less ih
    · rw [if_neg hl]
      by_cases hg : c = '>'
      · subst hg
        exact .greater ih
      · rw [if_neg hg]
        exact .keep c ih

theorem IsEscapeOf.append {line s line' s' : Text} (h : IsEscapeOf line s)
    (h' : IsEscapeOf line' s') : IsEscapeOf (line ++ line') (s ++ s') := by
  induction h with
  | nil => exact h'
  | keep c _ ih => exact .keep c ih
  | less _ ih => exact .less ih
  | greater _ ih => exact .greater ih

/-- The escapes of a text that was put together are put together of escapes. -/
theorem IsEscapeOf.exists_append {line a b : Text} (h : IsEscapeOf line (a ++ b)) :
    ∃ a' b', line = a' ++ b' ∧ IsEscapeOf a' a ∧ IsEscapeOf b' b := by
  induction a generalizing line with
  | nil => exact ⟨[], line, rfl, .nil, h⟩
  | cons c a ih =>
    rw [List.cons_append] at h
    cases h with
    | keep _ h =>
      obtain ⟨a', b', rfl, ha, hb⟩ := ih h
      exact ⟨c :: a', b', rfl, .keep c ha, hb⟩
    | less h =>
      obtain ⟨a', b', rfl, ha, hb⟩ := ih h
      exact ⟨_, b', (List.append_assoc ..).symm, .less ha, hb⟩
    | greater h =>
      obtain ⟨a', b', rfl, ha, hb⟩ := ih h
      exact ⟨_, b', (List.append_assoc ..).symm, .greater ha, hb⟩

/-- A text without angle brackets has nothing to escape. -/
theorem IsEscapeOf.eq_of_notMem {line s : Text} (h : IsEscapeOf line s) (hl : '<' ∉ s)
    (hg : '>' ∉ s) : line = s := by
  induction h with
  | nil => rfl
  | keep c _ ih =>
    simp only [List.mem_cons, not_or] at hl hg
    rw [ih hl.2 hg.2]
  | less _ _ => simp at hl
  | greater _ _ => simp at hg

/-- A piece without angle brackets stands in a line as in the text. -/
theorem IsEscapeOf.occurs {line s piece : Text} (h : IsEscapeOf line s) (hp : piece <:+: s)
    (hl : '<' ∉ piece) (hg : '>' ∉ piece) : piece <:+: line := by
  obtain ⟨a, b, rfl⟩ := hp
  obtain ⟨ap, b', rfl, hap, -⟩ := h.exists_append
  obtain ⟨a', p', rfl, -, hp'⟩ := hap.exists_append
  rw [hp'.eq_of_notMem hl hg]
  exact ⟨a', b', rfl⟩

theorem escapeAngles_eq_self {s : Text} (hl : '<' ∉ s) (hg : '>' ∉ s) : escapeAngles s = s :=
  (isEscapeOf_escapeAngles s).eq_of_notMem hl hg

theorem unescapeLess_cons {c : Char} (h : c ≠ '&') (s : Text) :
    unescapeLess (c :: s) = c :: unescapeLess s :=
  unescapeLess.eq_2 c s (by intro r he; exact absurd he h)

theorem unescapeGreater_cons {c : Char} (h : c ≠ '&') (s : Text) :
    unescapeGreater (c :: s) = c :: unescapeGreater s :=
  unescapeGreater.eq_2 c s (by intro r he; exact absurd he h)

theorem unescapeAngles_cons {c : Char} (h : c ≠ '&') (s : Text) :
    unescapeAngles (c :: s) = c :: unescapeAngles s := by
  rw [unescapeAngles, unescapeLess_cons h, unescapeGreater_cons h, unescapeAngles]

/-- A text is what comes out with some of the brackets escaped, whatever else it holds. -/
theorem isEscapeOf_self_unescapeLess (s : Text) : IsEscapeOf s (unescapeLess s) := by
  fun_induction unescapeLess s with
  | case1 s ih => exact .less ih
  | case2 c s _ ih => exact .keep c ih
  | case3 => exact .nil

theorem isEscapeOf_self_unescapeGreater (s : Text) : IsEscapeOf s (unescapeGreater s) := by
  fun_induction unescapeGreater s with
  | case1 s ih => exact .greater ih
  | case2 c s _ ih => exact .keep c ih
  | case3 => exact .nil

/-- **Undoing the escapes of a line makes no text without angle brackets that does not stand in the
line.** -/
theorem infix_of_infix_unescapeAngles {line piece : Text} (h : piece <:+: unescapeAngles line)
    (hl : '<' ∉ piece) (hg : '>' ∉ piece) : piece <:+: line := by
  have hless : piece <:+: unescapeLess line := (isEscapeOf_self_unescapeGreater _).occurs h hl hg
  exact (isEscapeOf_self_unescapeLess line).occurs hless hl hg

/-- Whether a text holds no escaped angle bracket. -/
def IsUnescaped (s : Text) : Prop := ¬ "&lt;".toList <:+: s ∧ ¬ "&gt;".toList <:+: s

instance : DecidablePred IsUnescaped := fun _ => inferInstanceAs (Decidable (_ ∧ _))

theorem IsUnescaped.tail {c : Char} {s : Text} (h : IsUnescaped (c :: s)) : IsUnescaped s :=
  ⟨fun hs => h.1 (hs.trans (List.suffix_cons c s).isInfix),
    fun hs => h.2 (hs.trans (List.suffix_cons c s).isInfix)⟩

/-- What follows a `&` is the end of no entity. -/
theorem IsUnescaped.not_isPrefix {s : Text} (h : IsUnescaped ('&' :: s)) :
    ¬ "lt;".toList <+: s ∧ ¬ "gt;".toList <+: s :=
  ⟨fun hs => h.1 (List.cons_prefix_cons.mpr ⟨rfl, hs⟩).isInfix,
    fun hs => h.2 (List.cons_prefix_cons.mpr ⟨rfl, hs⟩).isInfix⟩

theorem isUnescaped_of_notMem {s : Text} (h : '&' ∉ s) : IsUnescaped s :=
  ⟨fun hs => h (hs.subset (by decide)), fun hs => h (hs.subset (by decide))⟩

theorem unescapeLess_ampersand {s : Text} (h : ¬ "lt;".toList <+: s) :
    unescapeLess ('&' :: s) = '&' :: unescapeLess s :=
  unescapeLess.eq_2 '&' s (by rintro r - rfl; exact h ⟨r, rfl⟩)

theorem unescapeGreater_ampersand {s : Text} (h : ¬ "gt;".toList <+: s) :
    unescapeGreater ('&' :: s) = '&' :: unescapeGreater s :=
  unescapeGreater.eq_2 '&' s (by rintro r - rfl; exact h ⟨r, rfl⟩)

/-- A line does not start with more plain characters than the text. -/
theorem IsEscapeOf.isPrefix {line s piece : Text} (h : IsEscapeOf line s) (hp : '&' ∉ piece)
    (hline : piece <+: line) : piece <+: s := by
  induction piece generalizing line s with
  | nil => exact List.nil_prefix
  | cons c piece ih =>
    simp only [List.mem_cons, not_or] at hp
    cases h with
    | nil => exact absurd hline (by simp)
    | keep d h =>
      obtain ⟨rfl, hrest⟩ := List.cons_prefix_cons.mp hline
      exact List.cons_prefix_cons.mpr ⟨rfl, ih h hp.2 hrest⟩
    | less h => exact absurd (List.cons_prefix_cons.mp hline).1.symm hp.1
    | greater h => exact absurd (List.cons_prefix_cons.mp hline).1.symm hp.1

/-- When its `&lt;` are undone, a line still is the text with some brackets escaped. -/
theorem isEscapeOf_unescapeLess {line s : Text} (h : IsEscapeOf line s) (hs : IsUnescaped s) :
    IsEscapeOf (unescapeLess line) s := by
  induction h with
  | nil => exact .nil
  | @keep c line s h ih =>
    by_cases hc : c = '&'
    · subst hc
      rw [unescapeLess_ampersand fun hp => hs.not_isPrefix.1 (h.isPrefix (by decide) hp)]
      exact .keep '&' (ih hs.tail)
    · rw [unescapeLess_cons hc]
      exact .keep c (ih hs.tail)
  | less _ ih => exact .keep '<' (ih hs.tail)
  | greater _ ih => exact .greater (ih hs.tail)

/-- **A text without entities comes back from each of its escaped forms.** -/
theorem unescapeAngles_of_isEscapeOf {line s : Text} (h : IsEscapeOf line s)
    (hs : IsUnescaped s) : unescapeAngles line = s := by
  induction h with
  | nil => rfl
  | @keep c line s h ih =>
    by_cases hc : c = '&'
    · -- Neither the line nor what is left of it after the first pass goes on with an entity.
      subst hc
      rw [unescapeAngles,
        unescapeLess_ampersand fun hp => hs.not_isPrefix.1 (h.isPrefix (by decide) hp),
        unescapeGreater_ampersand fun hp =>
          hs.not_isPrefix.2 ((isEscapeOf_unescapeLess h hs.tail).isPrefix (by decide) hp),
        ← unescapeAngles, ih hs.tail]
    · rw [unescapeAngles_cons hc, ih hs.tail]
  | @less line s _ ih =>
    have hless : unescapeLess ("&lt;".toList ++ line) = '<' :: unescapeLess line := rfl
    rw [unescapeAngles, hless, unescapeGreater_cons (by decide), ← unescapeAngles, ih hs.tail]
  | @greater line s _ ih =>
    have hless : unescapeLess ("&gt;".toList ++ line) = "&gt;".toList ++ unescapeLess line := rfl
    have hgreater : ∀ t, unescapeGreater ("&gt;".toList ++ t) = '>' :: unescapeGreater t :=
      fun _ => rfl
    rw [unescapeAngles, hless, hgreater, ← unescapeAngles, ih hs.tail]

/-- **A text without `&` comes back from its escaped form.** -/
theorem unescapeAngles_escapeAngles {s : Text} (h : '&' ∉ s) :
    unescapeAngles (escapeAngles s) = s :=
  unescapeAngles_of_isEscapeOf (isEscapeOf_escapeAngles s) (isUnescaped_of_notMem h)

/-! ## Quotes -/

theorem dropQuotes_eq_self {s : Text} (h : '"' ∉ s) : s.dropWhile (· == '"') = s := by
  cases s with
  | nil => rfl
  | cons c s =>
    simp only [List.mem_cons, not_or] at h
    exact List.dropWhile_cons_of_neg (by simpa using Ne.symm h.1)

theorem unquoted_eq_self {s : Text} (h : '"' ∉ s) : unquoted s = s := by
  rw [unquoted, dropQuotes_eq_self h, dropQuotes_eq_self (by simpa using h), List.reverse_reverse]

/-- A text without quotes comes back from between quotes. -/
theorem unquoted_quotes {s : Text} (h : '"' ∉ s) : unquoted ('"' :: s ++ ['"']) = s := by
  cases s with
  | nil => rfl
  | cons c s =>
    have hc : (c == '"') = false := by
      simp only [List.mem_cons, not_or] at h
      simpa using Ne.symm h.1
    have hfirst : ('"' :: (c :: s) ++ ['"']).dropWhile (· == '"') = (c :: s) ++ ['"'] := by
      simp [hc]
    rw [unquoted, hfirst, List.reverse_append]
    simp only [List.reverse_cons, List.reverse_nil, List.nil_append, List.singleton_append]
    rw [List.dropWhile_cons_of_pos (by rfl), ← List.reverse_cons,
      dropQuotes_eq_self (by simpa [or_comm] using h), List.reverse_reverse]

end JvmSignature.Text
