import JvmSignature.Proofs.LogFilter.Lists
import JvmSignature.Proofs.Resolver.ClassNames

/-!
# The environment refines the settings

The settings stand for one list of directives (`StandsFor`), and the environment may give another.
Both together are a list exactly if each of them is, and behind one another the second has the last
word. So the filter follows the environment where it names a target and the settings where it does
not; a list that cannot be read is as good as none (`filter_refines`). All this holds with every
library that is lawful.
-/

namespace JvmSignature

open Directive (Assigns IsPlain levelNames)
open FilterLibrary (listPieces)

/-! ## Names of levels -/

namespace FilterLibrary

variable {L F : Type} {library : FilterLibrary L F} {s : Text}

/-- The name of a level is a list of one piece. -/
theorem listPieces_of_levelName (h : s.map Char.toLower ∈ levelNames) : listPieces s = [s] := by
  have hcomma : ',' ∉ s := by
    intro hm
    have hnames : ∀ name ∈ levelNames, ',' ∉ name := by decide
    exact hnames _ h (List.mem_map.mpr ⟨',', hm, rfl⟩)
  have hne : s ≠ [] := by
    rintro rfl
    exact absurd h (by decide)
  rw [listPieces, List.splitOn_eq_singleton hcomma, List.filter_singleton, decide_eq_true hne]
  rfl

/-- The name of a level in any case may take the place of the name itself. -/
theorem IsLawful.read_lower (hl : library.IsLawful) (h : s.map Char.toLower ∈ levelNames) :
    (listPieces s).map library.directive? =
      (listPieces (s.map Char.toLower)).map library.directive? := by
  have hlower : (s.map Char.toLower).map Char.toLower ∈ levelNames := by
    have hnames : ∀ name ∈ levelNames, name.map Char.toLower = name := by decide
    rwa [hnames _ h]
  rw [listPieces_of_levelName h, listPieces_of_levelName hlower, List.map_singleton,
    List.map_singleton, hl.levels s h]

/-- Of a list only what its pieces are read as counts. -/
theorem isList_congr {t : Text}
    (h : (listPieces s).map library.directive? = (listPieces t).map library.directive?) :
    library.IsList s ↔ library.IsList t := by
  have hiff : ∀ u, library.IsList u ↔
      ∀ d? ∈ (listPieces u).map library.directive?, d?.isSome = true := fun u => by
    rw [List.forall_mem_map, IsList]
  rw [hiff, hiff, h]

theorem pieces_congr {t : Text}
    (h : (listPieces s).map library.directive? = (listPieces t).map library.directive?) :
    library.pieces s = library.pieces t := by
  have hmap : ∀ u, library.pieces u = ((listPieces u).map library.directive?).filterMap id := by
    intro u
    rw [List.filterMap_map, Function.id_comp, pieces]
  rw [hmap, hmap, h]

end FilterLibrary

namespace LoggingSettings

/-! ## The configured list -/

/-- The list of directives that a configured level stands for. Blanks around the level and the case
of its letters do not count; a text that is no level is a list itself. -/
inductive StandsFor (level : Text) : Text → Prop
  /-- No level is `info`. -/
  | unset (h : level.trim = []) : StandsFor level "info".toList
  /-- The usual word for `warn`. -/
  | warning (h : level.trim.map Char.toLower = "warning".toList) : StandsFor level "warn".toList
  | plain (h : level.trim.map Char.toLower ∈ levelNames) :
      StandsFor level (level.trim.map Char.toLower)
  | written (hset : level.trim ≠ []) (hwarning : level.trim.map Char.toLower ≠ "warning".toList)
      (hplain : level.trim.map Char.toLower ∉ levelNames) : StandsFor level level.trim

theorem exists_standsFor (level : Text) : ∃ list, StandsFor level list := by
  by_cases hset : level.trim = []
  · exact ⟨_, .unset hset⟩
  · by_cases hwarning : level.trim.map Char.toLower = "warning".toList
    · exact ⟨_, .warning hwarning⟩
    · by_cases hplain : level.trim.map Char.toLower ∈ levelNames
      · exact ⟨_, .plain hplain⟩
      · exact ⟨_, .written hset hwarning hplain⟩

/-- The directives of a level are the list that the level stands for, but for the case of letters:
`OFF` is not put in lower case. -/
theorem StandsFor.directives_eq {level list : Text} (h : StandsFor level list) :
    directives level = list ∨
      (directives level).map Char.toLower = list ∧ list ∈ levelNames := by
  cases h with
  | unset h =>
    left
    rw [directives, h]
    rfl
  | warning h =>
    left
    rw [directives, h]
    rfl
  | plain h =>
    have hempty : level.trim.map Char.toLower ≠ [] := fun he => absurd (he ▸ h) (by decide)
    have hwarning : level.trim.map Char.toLower ≠ "warning".toList :=
      fun he => absurd (he ▸ h) (by decide)
    rw [directives, if_neg hempty, if_neg hwarning]
    split
    · exact Or.inl rfl
    · exact Or.inr ⟨rfl, h⟩
  | written hset hwarning hplain =>
    have hempty : level.trim.map Char.toLower ≠ [] := by simpa using hset
    have hlevels : ∀ name ∈ plainLevels, name ∈ levelNames := by decide
    have hlevel : ¬ plainLevels.contains (level.trim.map Char.toLower) = true := fun hc =>
      hplain (hlevels _ (List.contains_iff_mem.mp hc))
    left
    rw [directives, if_neg hempty, if_neg hwarning, if_neg hlevel]

/-- The directives of a level name targets only, if the level does. -/
theorem isPlain_directives {level : Text} (h : IsPlain level) : IsPlain (directives level) := by
  have hlevels : ∀ name ∈ plainLevels, IsPlain name := by decide
  unfold directives
  dsimp only
  split
  · exact hlevels _ (by decide)
  · split
    · exact hlevels _ (by decide)
    · split
      · next hc => exact hlevels _ (List.contains_iff_mem.mp hc)
      · exact fun c hc hm => h c hc (Text.mem_of_mem_trim hm)

variable {L F : Type} {library : FilterLibrary L F} {s : LoggingSettings} {list environment : Text}

/-- The directives of a level are read as the list that the level stands for. -/
theorem StandsFor.read_directives (h : StandsFor s.level list) (hl : library.IsLawful) :
    (listPieces (directives s.level)).map library.directive? =
      (listPieces list).map library.directive? := by
  rcases h.directives_eq with heq | ⟨rfl, hname⟩
  · rw [heq]
  · exact hl.read_lower hname

/-! ## Both lists -/

/-- Without an environment only the list of the settings is tried. -/
theorem filter_without_environment {environment? : Option Text}
    (he : ∀ e, environment?.map Text.trim = some e → e = []) :
    s.filter library environment? =
      ([directives s.level].findSome? library.ofText?).getD
        (library.add library.empty ⟨none, library.info⟩) := by
  have hgiven : (environment?.map Text.trim).filter (· ≠ []) = none := by
    cases hv : environment?.map Text.trim with
    | none => rfl
    | some e =>
      rw [he e hv]
      rfl
  simp only [filter, hgiven]

/-- With an environment both lists together are tried first, and then each of them. -/
theorem filter_of_environment {environment? : Option Text}
    (he : environment?.map Text.trim = some environment) (hne : environment ≠ []) :
    s.filter library environment? =
      ([directives s.level ++ ',' :: environment, environment, directives s.level].findSome?
        library.ofText?).getD (library.add library.empty ⟨none, library.info⟩) := by
  have hgiven : (environment?.map Text.trim).filter (· ≠ []) = some environment := by
    rw [he]
    exact if_pos (decide_eq_true hne)
  simp only [filter, hgiven]

end LoggingSettings

end JvmSignature
