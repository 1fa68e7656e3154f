import JvmSignature.Text.Alphanumeric
import JvmSignature.Text.Blank

/-!
# Outlines of source files

The package and the class of a source file, found line by line without reading the language: blanks
at the ends of a line do not count, and where several lines fit the last one wins.
-/

namespace JvmSignature.SourceOutline

/-- The lines of a text, without the blanks at their ends. -/
def lines (source : Text) : List Text := (source.splitOn '\n').map Text.trim

/-- The package that a line declares. -/
def packageOfLine? (line : Text) : Option Text := do
  let rest ← "package ".toList.isPrefixOf? line
  let name ← [';'].isSuffixOf? rest
  return Text.trim name

/-- What a line says from the name of a class on: behind `class ` at its start, else inside it. -/
def afterClass? (line : Text) : Option Text :=
  match "class ".toList.isPrefixOf? line with
  | some rest => some rest
  | none => (Text.cut? " class ".toList line).map Prod.snd

/-- Characters of a simple class name. -/
def isNameChar (c : Char) : Bool := isAlphanumeric c || c == '_' || c == '$'

/-- The class that a line declares. -/
def classOfLine? (line : Text) : Option Text := do
  let rest ← afterClass? line
  let name := (Text.trimStart rest).takeWhile isNameChar
  if name = [] then none else some name

/-- The package of a source file; empty when no line declares one. -/
def packageName (source : Text) : Text :=
  ((lines source).filterMap packageOfLine?).getLast?.getD []

/-- The simple name of the last class of a source file; empty when no line declares one. -/
def className (source : Text) : Text := ((lines source).filterMap classOfLine?).getLast?.getD []

end JvmSignature.SourceOutline
