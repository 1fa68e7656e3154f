import JvmSignature.Settings

/-!
# Log filters

A filter says from which level on messages are written: of all targets, and of targets by name. It
is given as a list of directives separated by commas. What a directive is and what a filter does
with it is decided by a library (`FilterLibrary`). What is decided here is which lists the library
is asked to read.

The settings give one list and the environment may give another that refines it. A list that cannot
be read never takes the other with it.
-/

namespace JvmSignature

/-- A level of one target, or of every target that no directive names. -/
structure Directive (L : Type) where
  target? : Option Text
  level : L
  deriving DecidableEq, Repr

namespace Directive

/-- The number of bytes of a text in UTF-8. -/
def byteSize (s : Text) : Nat := s.foldl (fun size c => size + c.utf8Size) 0

/--
Whether a directive stands before one of another target: the longer target first, of equally long
ones the greater, and every target before none.
-/
def precedes {L : Type} (d e : Directive L) : Bool :=
  match d.target?, e.target? with
  | none, _ => false
  | some _, none => true
  | some a, some b => byteSize b < byteSize a || (byteSize b = byteSize a && b < a)

end Directive

/-- A library of log filters, with its types of levels and of filters. -/
structure FilterLibrary (L F : Type) where
  /-- The filter of a list of directives, if the list is valid. -/
  ofText? : Text → Option F
  /-- The filter without directives. -/
  empty : F
  /-- A filter with one more directive. -/
  add : F → Directive L → F
  /-- The level of messages that inform. -/
  info : L
  /-- The directive that is written in one piece of a list, if the piece is valid. -/
  directive? : Text → Option (Directive L)
  /-- The directives that a filter displays. -/
  directives : F → List (Directive L)

namespace LoggingSettings

/-- The levels that a configuration may name in any case of their letters. -/
def plainLevels : List Text :=
  ["trace".toList, "debug".toList, "info".toList, "warn".toList, "error".toList]

/-- The directives of a configured level: a level in its usual spelling, or the text as it is. -/
def directives (level : Text) : Text :=
  let level := level.trim
  let lower := level.map Char.toLower
  if lower = [] then "info".toList
  else if lower = "warning".toList then "warn".toList
  else if plainLevels.contains lower then lower
  else level

/--
The filter of the settings and of what the environment says. Both lists together are tried first,
then that of the environment, then that of the settings; if none is valid, the level is `info`.
-/
def filter {L F : Type} (s : LoggingSettings) (library : FilterLibrary L F)
    (environment? : Option Text) : F :=
  let configured := directives s.level
  let attempts :=
    match (environment?.map Text.trim).filter (· ≠ []) with
    | some environment => [configured ++ ',' :: environment, environment, configured]
    | none => [configured]
  (attempts.findSome? library.ofText?).getD (library.add library.empty ⟨none, library.info⟩)

end LoggingSettings

end JvmSignature
