import JvmSignature.LogFilter.Directives
import JvmSignature.Proofs.LogFilter.Library
import JvmSignature.Proofs.Text.Names

/-!
# Filters that are lists of directives

In the library whose filters are lists of directives, a list is read piece by piece, and its
directives are put into the filter one after the other. So the filter has the last directive of each
target (`assigns_foldl_insert`), in its order, and the library is lawful (`library_isLawful`).
-/

namespace JvmSignature

/-! ## Levels by name -/

theorem isAlpha_iff {c : Char} : c.isAlpha = true ↔
    (0x41 ≤ c.toNat ∧ c.toNat ≤ 0x5A) ∨ (0x61 ≤ c.toNat ∧ c.toNat ≤ 0x7A) := by
  change (decide ('A'.val ≤ c.val ∧ c.val ≤ 'Z'.val) ||
    (decide ('a'.val ≤ c.val) && decide (c.val ≤ 'z'.val))) = true ↔ _
  simp only [Bool.or_eq_true, Bool.and_eq_true, decide_eq_true_eq, UInt32.le_iff_toNat_le]
  exact Iff.rfl

/-- Only a letter becomes a letter. -/
theorem isAlpha_of_toLower {c : Char} (h : c.toLower.isAlpha = true) : c.isAlpha = true := by
  by_cases hc : c.val ≥ 'A'.val ∧ c.val ≤ 'Z'.val
  · exact isAlpha_iff.mpr (Or.inl hc)
  · have hsame : c.toLower = c := dif_neg hc
    rwa [hsame] at h

theorem isBlank_of_isAlpha {c : Char} (h : c.isAlpha = true) : isBlank c = false := by
  rw [isBlank, ← Bool.not_eq_true, List.contains_iff_mem]
  have hcodes : ∀ n ∈ blankCodes, n < 0x41 ∨ 0x7A < n := by decide
  intro hm
  have := hcodes _ hm
  have := isAlpha_iff.mp h
  omega

theorem isDigit_of_isAlpha {c : Char} (h : c.isAlpha = true) : c.isDigit = false := by
  rw [← Bool.not_eq_true]
  intro hd
  change (decide ('0'.val ≤ c.val) && decide (c.val ≤ '9'.val)) = true at hd
  simp only [Bool.and_eq_true, decide_eq_true_eq, UInt32.le_iff_toNat_le] at hd
  have hlast : c.toNat ≤ 0x39 := hd.2
  have := isAlpha_iff.mp h
  omega

namespace Level

theorem name_ne_nil (level : Level) : level.name ≠ [] := by
  cases level <;> decide

theorem lower_name (level : Level) : level.name.map Char.toLower = level.name := by
  cases level <;> decide

theorem isAlpha_of_name {s : Text} {level : Level} (h : s.map Char.toLower = level.name) {c : Char}
    (hc : c ∈ s) : c.isAlpha = true := by
  have hletters : ∀ d ∈ level.name, d.isAlpha = true := by
    cases level <;> exact forall_mem_of_all (by decide)
  exact isAlpha_of_toLower (hletters _ (h ▸ List.mem_map_of_mem hc))

theorem exists_cons_of_name {s : Text} {level : Level} (h : s.map Char.toLower = level.name) :
    ∃ c rest, s = c :: rest := by
  refine List.exists_cons_of_ne_nil ?_
  rintro rfl
  exact level.name_ne_nil h.symm

/-- A level is read from its name in any case. -/
theorem ofText?_of_name {s : Text} {level : Level} (h : s.map Char.toLower = level.name) :
    ofText? s = some level := by
  have hnumber : ofNumber? s = none := by
    obtain ⟨c, rest, rfl⟩ := exists_cons_of_name h
    have hc : c.isAlpha = true := isAlpha_of_name h List.mem_cons_self
    have hplus : ['+'].isPrefixOf? (c :: rest) = none := by
      refine if_neg fun hp => ?_
      rw [← beq_iff_eq.mp hp] at hc
      exact absurd hc (by decide)
    have hdigits : (c :: rest).all Char.isDigit = false := by
      rw [List.all_cons, isDigit_of_isAlpha hc, Bool.false_and]
    rw [ofNumber?, hplus]
    exact if_pos (Or.inr (by rw [Option.getD_none, hdigits]; rfl))
  rw [ofText?, hnumber, h]
  cases level <;> rfl

end Level

namespace Directive

/-- A piece that is a level alone, in any case, is a directive for all targets. -/
theorem ofText?_of_name {s : Text} {level : Level} (h : s.map Char.toLower = level.name) :
    ofText? s = some ⟨none, level⟩ := by
  -- The text has letters only, so there is nothing to cut off or to cut at.
  have hletter : ∀ c ∈ s, c.isAlpha = true := fun c hc => Level.isAlpha_of_name h hc
  have htrim : s.trim = s :=
    Text.trim_eq_self_of_forall fun c hc => isBlank_of_isAlpha (hletter c hc)
  have hcut : s.cutAt? '=' = none :=
    Text.cutAt?_eq_none_iff.mpr fun hm => absurd (hletter '=' hm) (by decide)
  have hinitial : s.head?.any isInitial = true := by
    obtain ⟨c, rest, rfl⟩ := Level.exists_cons_of_name h
    have hc : c.isAlphanum = true := by
      change (c.isAlpha || c.isDigit) = true
      rw [hletter c List.mem_cons_self, Bool.true_or]
    change isInitial c = true
    rw [isInitial, isAlphanumeric_of_isAlphanum hc]
    rfl
  rw [ofText?, htrim, hinitial, hcut]
  simp only [Level.ofText?_of_name h]
  rfl

/-! ## Lists -/

theorem mapM_eq_some_filterMap {α β : Type} {read : α → Option β} {as : List α}
    (h : ∀ a ∈ as, (read a).isSome = true) : as.mapM read = some (as.filterMap read) := by
  induction as with
  | nil => rfl
  | cons a as ih =>
    obtain ⟨hfirst, hrest⟩ := List.forall_mem_cons.mp h
    obtain ⟨b, hb⟩ := Option.isSome_iff_exists.mp hfirst
    rw [List.mapM_cons, hb, ih hrest, List.filterMap_cons_some hb]
    rfl

theorem mapM_eq_none {α β : Type} {read : α → Option β} {as : List α} {a : α} (hm : a ∈ as)
    (h : read a = none) : as.mapM read = none := by
  induction as with
  | nil => cases hm
  | cons b as ih =>
    rw [List.mapM_cons]
    rcases List.mem_cons.mp hm with rfl | hm
    · rw [h]
      rfl
    · rw [ih hm]
      cases read b <;> rfl

end Directive

namespace LogFilter

open Directive (Assigns IsOrdered level? level?_append level?_cons lastLevel? levelNames)

/-- A list of directives is read with all of them. -/
theorem ofText?_of_isList {s : Text} (h : library.IsList s) :
    ofText? s = some ((library.pieces s).foldl (fun filter d => insert d filter) []) := by
  have hread : Directive.ofList? s = some (library.pieces s) := Directive.mapM_eq_some_filterMap h
  rw [ofText?, hread, Option.map_some]

theorem ofText?_eq_none {s : Text} (h : ¬ library.IsList s) : ofText? s = none := by
  simp only [FilterLibrary.IsList, not_forall] at h
  obtain ⟨piece, hm, hnone⟩ := h
  rw [ofText?, Option.map_eq_none_iff]
  exact Directive.mapM_eq_none hm (Option.not_isSome_iff_eq_none.mp hnone)

/-! ## Putting directives in -/

/-- **A new directive decides about its own target**, and about no other. -/
theorem level?_insert (d : Directive Level) (filter : LogFilter) (target? : Option Text) :
    level? (insert d filter) target? =
      if d.target? = target? then some d.level else level? filter target? := by
  induction filter with
  | nil => rw [insert, level?_cons]
  | cons e rest ih =>
    rw [insert]
    split
    · next hsame =>
      rw [level?_cons, level?_cons, hsame]
      split <;> rfl
    · next hother =>
      split
      · rw [level?_cons]
      · rw [level?_cons, ih, level?_cons]
        split
        · next he =>
          rw [if_neg fun hd => hother (he.trans hd.symm)]
        · rfl

theorem mem_insert {d e : Directive Level} {filter : LogFilter} (h : e ∈ insert d filter) :
    e = d ∨ e ∈ filter := by
  induction filter with
  | nil => exact Or.inl (List.mem_singleton.mp h)
  | cons f rest ih =>
    rw [insert] at h
    split at h
    · exact (List.mem_cons.mp h).imp_right (List.mem_cons_of_mem f)
    · split at h
      · exact List.mem_cons.mp h
      · rcases List.mem_cons.mp h with rfl | h
        · exact Or.inr List.mem_cons_self
        · exact (ih h).imp_right (List.mem_cons_of_mem f)

theorem isOrdered_insert {filter : LogFilter} (h : IsOrdered filter) (d : Directive Level) :
    IsOrdered (insert d filter) := by
  induction filter with
  | nil => exact List.pairwise_singleton _ _
  | cons e rest ih =>
    obtain ⟨he, hrest⟩ := List.pairwise_cons.mp h
    rw [insert]
    split
    · next hsame =>
      refine List.pairwise_cons.mpr ⟨fun f hf => ?_, hrest⟩
      rw [← Directive.precedes_congr hsame]
      exact he f hf
    · next hother =>
      split
      · next hbefore =>
        refine List.pairwise_cons.mpr ⟨fun f hf => ?_, h⟩
        rcases List.mem_cons.mp hf with rfl | hf
        · exact hbefore
        · exact Directive.precedes_trans hbefore (he f hf)
      · next hnot =>
        -- The new directive goes somewhere behind `e`, which therefore has to stand before it.
        refine List.pairwise_cons.mpr ⟨fun f hf => ?_, ih hrest⟩
        rcases mem_insert hf with rfl | hf
        · exact Directive.precedes_of_not_precedes hother (Bool.eq_false_of_not_eq_true hnot)
        · exact he f hf

/-- The directives put into a filter one after the other: the last one of each target counts. -/
theorem assigns_foldl_insert {filter : LogFilter} {rule : Option Text → Option Level}
    (h : Assigns filter rule) (ds : List (Directive Level)) :
    Assigns (ds.foldl (fun filter d => insert d filter) filter) fun target? =>
      (lastLevel? ds target?).or (rule target?) := by
  -- For every filter and its rule, as each directive changes both.
  induction ds generalizing filter rule with
  | nil => exact h
  | cons d ds ih =>
    have hstep : Assigns (insert d filter) fun target? =>
        if d.target? = target? then some d.level else rule target? :=
      ⟨isOrdered_insert h.ordered d, fun target? => by rw [level?_insert, h.level?_eq]⟩
    have hrun := ih hstep
    refine ⟨hrun.ordered, fun target? => ?_⟩
    rw [List.foldl_cons, hrun.level?_eq, lastLevel?, lastLevel?, List.reverse_cons, level?_append,
      Option.or_assoc, level?_cons]
    split <;> rfl

/-- **A list of directives has a filter with the last level of each target.** -/
theorem assigns_of_ofText? {s : Text} {filter : LogFilter} (h : ofText? s = some filter) :
    Assigns filter (library.lastLevel? s) := by
  by_cases hlist : library.IsList s
  · rw [ofText?_of_isList hlist, Option.some_inj] at h
    have hempty : Assigns ([] : LogFilter) fun _ => none := ⟨List.Pairwise.nil, fun _ => rfl⟩
    have hrun := assigns_foldl_insert hempty (library.pieces s)
    rw [← h]
    exact ⟨hrun.ordered, fun target? => by rw [hrun.level?_eq, Option.or_none]; rfl⟩
  · rw [ofText?_eq_none hlist] at h
    cases h

/-- A piece that is the name of a level is read in any case. -/
theorem directive?_of_levelName {s : Text} (h : s.map Char.toLower ∈ levelNames) :
    library.directive? s = library.directive? (s.map Char.toLower) := by
  have hnames : levelNames = Level.all.map Level.name := rfl
  obtain ⟨level, -, hname⟩ := List.mem_map.mp (hnames ▸ h)
  have hlower : (s.map Char.toLower).map Char.toLower = level.name := by
    rw [← hname, level.lower_name]
  exact (Directive.ofText?_of_name hname.symm).trans (Directive.ofText?_of_name hlower).symm

/-- **The lists of directives are a lawful library**, of lists of any form. -/
theorem library_isLawful : library.IsLawful where
  valid s _ := by
    constructor
    · intro h
      by_contra hlist
      rw [show library.ofText? s = none from ofText?_eq_none hlist] at h
      cases h
    · intro h
      exact Option.isSome_iff_exists.mpr ⟨_, ofText?_of_isList h⟩
  replaces _ _ _ h := (Directive.assigns_lastLevel?_iff.mp (assigns_of_ofText? h)).2
  ordered _ _ _ h := (assigns_of_ofText? h).ordered
  added _ := rfl
  levels _ := directive?_of_levelName

end LogFilter

end JvmSignature
