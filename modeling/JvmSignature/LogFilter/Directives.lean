import JvmSignature.Decimal.Basic
import JvmSignature.LogFilter
import JvmSignature.Text.Alphanumeric

/-!
# A library of log filters

Here a filter is the list of its directives, of which no two have the same target. A directive is a
level, a target with a level, or a target alone, which then is written in full. One directive that
cannot be read makes the whole list void.
-/

namespace JvmSignature

/-- How much is written. -/
inductive Level where
  | off | error | warn | info | debug | trace
  deriving DecidableEq, Repr

namespace Level

/-- All levels, each one writing more than those before it. -/
def all : List Level := [off, error, warn, info, debug, trace]

def name : Level → Text
  | off => "off".toList
  | error => "error".toList
  | warn => "warn".toList
  | info => "info".toList
  | debug => "debug".toList
  | trace => "trace".toList

/-- The level of a number, which may have a plus sign and leading zeros. -/
def ofNumber? (s : Text) : Option Level :=
  let digits := (['+'].isPrefixOf? s).getD s
  if digits = [] ∨ !digits.all Char.isDigit then none else all[Decimal.natOfDigits digits]?

/-- The level of a name in any case of its letters, or of a number from 0 on. -/
def ofText? (s : Text) : Option Level :=
  match ofNumber? s with
  | some level => some level
  | none => all.find? fun level => level.name = s.map Char.toLower

end Level

namespace Directive

/-- Characters that a directive may start with. -/
def isInitial (c : Char) : Bool := isAlphanumeric c || c == '-' || c == ':' || c == '_'

/-- A directive. No blank may stand before a target with a level, nor around the level. -/
def ofText? (piece : Text) : Option (Directive Level) :=
  if !piece.trim.head?.any isInitial then none
  else
    match piece.cutAt? '=' with
    | none =>
      match Level.ofText? piece with
      | some level => some ⟨none, level⟩
      | none => some ⟨some piece, .trace⟩
    | some (target, level) =>
      if piece.head?.any isBlank then none
      else if level = [] then some ⟨some target, .trace⟩
      else (Level.ofText? level).map fun level => ⟨some target, level⟩

/-- The directives of a list; empty pieces do not count. -/
def ofList? (s : Text) : Option (List (Directive Level)) :=
  ((s.splitOn ',').filter (· ≠ [])).mapM ofText?

def text (d : Directive Level) : Text :=
  match d.target? with
  | none => d.level.name
  | some target => target ++ '=' :: d.level.name

end Directive

/-- A filter: directives of different targets, in their order. -/
abbrev LogFilter := List (Directive Level)

namespace LogFilter

/-- The filter with one more directive, in the place of an earlier one of that target. -/
def insert (d : Directive Level) : LogFilter → LogFilter
  | [] => [d]
  | e :: rest =>
    if e.target? = d.target? then d :: rest
    else if d.precedes e then d :: e :: rest
    else e :: insert d rest

/-- The filter of a list of directives. -/
def ofText? (s : Text) : Option LogFilter :=
  (Directive.ofList? s).map fun ds => ds.foldl (fun filter d => insert d filter) []

/-- The directives, separated by commas. -/
def text (filter : LogFilter) : Text := [','].intercalate (filter.map Directive.text)

/-- The library of these filters. -/
def library : FilterLibrary Level LogFilter where
  ofText? := ofText?
  empty := []
  add filter d := insert d filter
  info := .info
  directive? := Directive.ofText?
  directives := id

end LogFilter

end JvmSignature
