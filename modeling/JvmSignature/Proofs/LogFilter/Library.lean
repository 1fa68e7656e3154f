import JvmSignature.LogFilter
import Mathlib.Data.List.Sort

/-!
# What is known of a library of log filters

Of the library that reads the lists of directives this much is documented (`IsLawful`). A list is
valid exactly if each of its pieces is. Of the directives of one target only the last counts, as a
later one replaces it. What a filter displays is in an order. A level may be named in any case.

So a valid list has a filter that gives each target the level of its last directive
(`IsLawful.exists_assigns`). The directives of two lists behind one another are those of the first
and then those of the second, which therefore have the last word (`lastLevel?_append`).

The order compares targets only, and no two directives of a filter have the same target. So what a
filter displays is known by the level of each target (`Assigns.eq`).
-/

namespace JvmSignature

namespace Directive

variable {L : Type} {d d' e f : Directive L} {ds shown : List (Directive L)}

/-! ## The order -/

/-- Only the targets are compared. -/
theorem precedes_congr (h : d.target? = d'.target?) (e : Directive L) :
    d.precedes e = d'.precedes e := by
  unfold precedes
  rw [h]

theorem precedes_eq_false_of_target (h : d.target? = e.target?) :
    d.precedes e = false := by
  unfold precedes
  rw [h]
  cases e.target? with
  | none => rfl
  | some target => simp

theorem precedes_trans (hde : d.precedes e = true) (hef : e.precedes f = true) :
    d.precedes f = true := by
  unfold precedes at *
  cases hd : d.target? with
  | none => simp [hd] at hde
  | some a =>
    cases he : e.target? with
    | none => simp [he] at hef
    | some b =>
      cases hf : f.target? with
      | none => rfl
      | some c =>
        simp only [hd, he, hf, Bool.or_eq_true, Bool.and_eq_true, decide_eq_true_eq] at *
        -- The texts are compared only where all three have the same size.
        rcases hde with hab | ⟨hab, hlt⟩
        · exact Or.inl (by omega)
        · rcases hef with hbc | ⟨hbc, hlt'⟩
          · exact Or.inl (by omega)
          · exact Or.inr ⟨by omega, List.lt_trans hlt' hlt⟩

/-- Of two directives of different targets one stands before the other. -/
theorem precedes_of_not_precedes (hne : e.target? ≠ d.target?)
    (h : d.precedes e = false) : e.precedes d = true := by
  unfold precedes at *
  cases hd : d.target? with
  | none =>
    cases he : e.target? with
    | none => exact absurd (he.trans hd.symm) hne
    | some b => rfl
  | some a =>
    cases he : e.target? with
    | none => simp [hd, he] at h
    | some b =>
      have hab : b ≠ a := fun hab => hne (by rw [he, hd, hab])
      simp only [hd, he, Bool.or_eq_false_iff, Bool.and_eq_false_iff, decide_eq_false_iff_not,
        Bool.or_eq_true, Bool.and_eq_true, decide_eq_true_eq] at *
      obtain ⟨hle, hsame⟩ := h
      by_cases hsize : byteSize a = byteSize b
      · rcases hsame with hne' | hnot
        · exact absurd hsize.symm hne'
        · rcases List.le_iff_lt_or_eq.mp (List.not_lt.mp hnot) with hlt | heq
          · exact Or.inr ⟨hsize, hlt⟩
          · exact absurd heq.symm hab
      · exact Or.inl (by omega)

/-! ## Levels by target -/

/-- The level of a target, if a directive names it; the first one that does counts. -/
def level? (ds : List (Directive L)) (target? : Option Text) : Option L :=
  (ds.find? fun d => d.target? = target?).map Directive.level

@[simp] theorem level?_nil (target? : Option Text) :
    level? ([] : List (Directive L)) target? = none := rfl

theorem level?_cons (d : Directive L) (ds : List (Directive L)) (target? : Option Text) :
    level? (d :: ds) target? = if d.target? = target? then some d.level else level? ds target? := by
  unfold level?
  rw [List.find?_cons]
  by_cases h : d.target? = target?
  · simp [h]
  · simp [h]

theorem level?_append (ds es : List (Directive L)) (target? : Option Text) :
    level? (ds ++ es) target? = (level? ds target?).or (level? es target?) := by
  unfold level?
  rw [List.find?_append, Option.map_or]

theorem level?_eq_some_iff {target? : Option Text} {l : L} :
    level? ds target? = some l ↔
      ∃ before after, ds = before ++ ⟨target?, l⟩ :: after ∧ ∀ e ∈ before, e.target? ≠ target? := by
  unfold level?
  rw [Option.map_eq_some_iff]
  constructor
  · rintro ⟨d, hd, rfl⟩
    obtain ⟨htarget, before, after, hds, hbefore⟩ := List.find?_eq_some_iff_append.mp hd
    obtain rfl := of_decide_eq_true htarget
    exact ⟨before, after, hds, fun e he => by simpa using hbefore e he⟩
  · rintro ⟨before, after, rfl, hbefore⟩
    refine ⟨⟨target?, l⟩, List.find?_eq_some_iff_append.mpr ⟨by simp, before, after, rfl, ?_⟩, rfl⟩
    exact fun e he => by simpa using hbefore e he

/-- Whether a directive is the last one of its target in a list: no later one replaces it. -/
def IsLast (d : Directive L) (ds : List (Directive L)) : Prop :=
  ∃ before after, ds = before ++ d :: after ∧ ∀ e ∈ after, e.target? ≠ d.target?

/-- The level of a target by the last directive of a list that names it. -/
def lastLevel? (ds : List (Directive L)) (target? : Option Text) : Option L :=
  level? ds.reverse target?

theorem lastLevel?_append (ds es : List (Directive L)) (target? : Option Text) :
    lastLevel? (ds ++ es) target? = (lastLevel? es target?).or (lastLevel? ds target?) := by
  rw [lastLevel?, List.reverse_append, level?_append, lastLevel?, lastLevel?]

theorem isLast_iff : d.IsLast ds ↔ lastLevel? ds d.target? = some d.level := by
  rw [lastLevel?, level?_eq_some_iff]
  constructor
  · rintro ⟨before, after, rfl, hafter⟩
    refine ⟨after.reverse, before.reverse, by simp, fun e he => hafter e (List.mem_reverse.mp he)⟩
  · rintro ⟨after, before, hds, hafter⟩
    refine ⟨before.reverse, after.reverse, ?_, fun e he => hafter e (List.mem_reverse.mp he)⟩
    rw [← List.reverse_reverse ds, hds]
    simp

/-! ## What is displayed -/

/-- Whether every directive stands before those behind it, so that no two have the same target. -/
def IsOrdered (shown : List (Directive L)) : Prop := shown.Pairwise fun d e => d.precedes e = true

/-- Among directives in their order every one decides about its target. -/
theorem IsOrdered.mem_iff (h : IsOrdered shown) :
    d ∈ shown ↔ level? shown d.target? = some d.level := by
  induction shown with
  | nil => simp
  | cons e rest ih =>
    obtain ⟨he, hrest⟩ := List.pairwise_cons.mp h
    rw [level?_cons, List.mem_cons]
    by_cases hsame : e.target? = d.target?
    · rw [if_pos hsame, Option.some_inj]
      constructor
      · rintro (rfl | hm)
        · rfl
        · exact absurd (he d hm) (by rw [precedes_eq_false_of_target hsame]; decide)
      · intro hlevel
        refine Or.inl ?_
        cases d
        cases e
        cases hsame
        cases hlevel
        rfl
    · rw [if_neg hsame, ← ih hrest]
      exact ⟨fun hm => hm.resolve_left fun heq => hsame (heq ▸ rfl), Or.inr⟩

/-- Whether what is displayed is in its order and has the level of each target that a rule gives,
and nothing else. -/
structure Assigns (shown : List (Directive L)) (rule : Option Text → Option L) : Prop where
  ordered : IsOrdered shown
  level?_eq : ∀ target?, level? shown target? = rule target?

/-- **The levels of the targets are all there is to what is displayed.** -/
theorem Assigns.eq {other : List (Directive L)} {rule : Option Text → Option L}
    (h : Assigns shown rule) (hother : Assigns other rule) : shown = other := by
  have irrefl : Std.Irrefl fun d e : Directive L => d.precedes e = true :=
    ⟨fun d => by rw [precedes_eq_false_of_target rfl]; decide⟩
  have hmem : ∀ d : Directive L, d ∈ shown ↔ d ∈ other := fun d => by
    rw [h.ordered.mem_iff, hother.ordered.mem_iff, h.level?_eq, hother.level?_eq]
  refine List.Perm.eq_of_pairwise (fun d e _ _ hde hed => ?_) h.ordered hother.ordered ?_
  · have := precedes_trans hde hed
    rw [precedes_eq_false_of_target rfl] at this
    cases this
  · exact (List.perm_ext_iff_of_nodup h.ordered.nodup hother.ordered.nodup).mpr hmem

/-- The last directive of each target is displayed exactly if each target has its last level. -/
theorem assigns_lastLevel?_iff :
    Assigns shown (lastLevel? ds) ↔ IsOrdered shown ∧ ∀ d, d ∈ shown ↔ d.IsLast ds := by
  constructor
  · intro h
    refine ⟨h.ordered, fun d => ?_⟩
    rw [h.ordered.mem_iff, h.level?_eq, isLast_iff]
  · rintro ⟨hordered, hlast⟩
    refine ⟨hordered, fun target? => Option.ext fun l => ?_⟩
    have hmem := hlast ⟨target?, l⟩
    rwa [hordered.mem_iff, isLast_iff] at hmem

/-! ## Texts -/

/-- The names of the levels. -/
def levelNames : List Text :=
  ["off".toList, "error".toList, "warn".toList, "info".toList, "debug".toList, "trace".toList]

/-- Whether a text has none of the brackets in which a directive would name spans and fields. -/
def IsPlain (s : Text) : Prop := ∀ c ∈ "[]{}".toList, c ∉ s

instance : DecidablePred IsPlain := fun s =>
  decidable_of_iff (("[]{}".toList.all fun c => decide (c ∉ s)) = true) (by
    rw [List.all_eq_true, IsPlain]
    simp only [decide_eq_true_eq])

theorem IsPlain.append {s t : Text} (hs : IsPlain s) (ht : IsPlain t) :
    IsPlain (s ++ ',' :: t) := by
  intro c hc hm
  rcases List.mem_append.mp hm with hm | hm
  · exact hs c hc hm
  · rcases List.mem_cons.mp hm with rfl | hm
    · exact absurd hc (by decide)
    · exact ht c hc hm

end Directive

namespace FilterLibrary

open Directive (IsLast IsOrdered IsPlain Assigns levelNames)

variable {L F : Type} {library : FilterLibrary L F} {s t : Text}

/-! ## Lists of directives -/

/-- The pieces of a list; empty ones do not count. -/
def listPieces (s : Text) : List Text := (s.splitOn ',').filter (· ≠ [])

theorem listPieces_append (s t : Text) :
    listPieces (s ++ ',' :: t) = listPieces s ++ listPieces t := by
  unfold listPieces
  rw [List.splitOn_append_cons_self, List.filter_append]

/-- Whether every piece of a text is a directive. -/
def IsList (library : FilterLibrary L F) (s : Text) : Prop :=
  ∀ piece ∈ listPieces s, (library.directive? piece).isSome = true

instance (library : FilterLibrary L F) (s : Text) : Decidable (library.IsList s) :=
  inferInstanceAs (Decidable (∀ piece ∈ listPieces s, (library.directive? piece).isSome = true))

theorem isList_append : library.IsList (s ++ ',' :: t) ↔ library.IsList s ∧ library.IsList t := by
  unfold IsList
  rw [listPieces_append, List.forall_mem_append]

/-- The directives among the pieces of a text. -/
def pieces (library : FilterLibrary L F) (s : Text) : List (Directive L) :=
  (listPieces s).filterMap library.directive?

theorem pieces_append (s t : Text) :
    library.pieces (s ++ ',' :: t) = library.pieces s ++ library.pieces t := by
  unfold pieces
  rw [listPieces_append, List.filterMap_append]

/-- The level of the last directive that a list has for a target. -/
def lastLevel? (library : FilterLibrary L F) (s : Text) (target? : Option Text) : Option L :=
  Directive.lastLevel? (library.pieces s) target?

theorem lastLevel?_append (s t : Text) (target? : Option Text) :
    library.lastLevel? (s ++ ',' :: t) target? =
      (library.lastLevel? t target?).or (library.lastLevel? s target?) := by
  rw [lastLevel?, pieces_append, Directive.lastLevel?_append, lastLevel?, lastLevel?]

/-! ## The documented behaviour -/

/-- What is documented of a library, of directives that name targets only. -/
structure IsLawful (library : FilterLibrary L F) : Prop where
  /-- A list is valid exactly if each of its pieces is. -/
  valid : ∀ s, IsPlain s → ((library.ofText? s).isSome = true ↔ library.IsList s)
  /-- A later directive for a target replaces an earlier one. -/
  replaces : ∀ s f, IsPlain s → library.ofText? s = some f →
    ∀ d, d ∈ library.directives f ↔ d.IsLast (library.pieces s)
  /-- A filter displays its directives in their order. -/
  ordered : ∀ s f, IsPlain s → library.ofText? s = some f → IsOrdered (library.directives f)
  /-- The filter without directives displays a level for all targets once one is added. -/
  added : ∀ l, library.directives (library.add library.empty ⟨none, l⟩) = [⟨none, l⟩]
  /-- The case of the name of a level does not count. -/
  levels : ∀ s, s.map Char.toLower ∈ levelNames →
    library.directive? s = library.directive? (s.map Char.toLower)

/-- **A valid list has a filter, with the last level of each target** and nothing else. -/
theorem IsLawful.exists_assigns (h : library.IsLawful) (hs : IsPlain s)
    (hlist : library.IsList s) :
    ∃ f, library.ofText? s = some f ∧ Assigns (library.directives f) (library.lastLevel? s) := by
  obtain ⟨f, hf⟩ := Option.isSome_iff_exists.mp ((h.valid s hs).mpr hlist)
  exact ⟨f, hf, Directive.assigns_lastLevel?_iff.mpr ⟨h.ordered s f hs hf, h.replaces s f hs hf⟩⟩

theorem IsLawful.ofText?_eq_none (h : library.IsLawful) (hs : IsPlain s)
    (hlist : ¬ library.IsList s) : library.ofText? s = none := by
  rw [← Option.not_isSome_iff_eq_none, h.valid s hs]
  exact hlist

end FilterLibrary

end JvmSignature
