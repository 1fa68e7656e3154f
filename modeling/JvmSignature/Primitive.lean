import JvmSignature.Text.Basic

/-!
# Primitive types

The eight primitive types of the Java virtual machine, and `void`, with the letter that stands for
each in a descriptor and the keyword that stands for it in a source text. `void` is among them
because it has a letter and a keyword; the readers of descriptors say where it is allowed.

Main statements: letter and keyword each determine the type (`ofCode?_eq_some_iff`,
`ofName?_eq_some_iff`).
-/

namespace JvmSignature

/-- A primitive type, or `void`. -/
inductive Primitive where
  | byte | char | double | float | int | long | short | boolean | void
  deriving DecidableEq, Repr

namespace Primitive

/-- All primitive types, in the alphabetical order of their letters, `boolean` and `void` last. -/
def all : List Primitive := [byte, char, double, float, int, long, short, boolean, void]

theorem mem_all (p : Primitive) : p ∈ all := by cases p <;> decide

/-- The letter of a type in descriptors. -/
def code : Primitive → Char
  | byte => 'B'
  | char => 'C'
  | double => 'D'
  | float => 'F'
  | int => 'I'
  | long => 'J'
  | short => 'S'
  | boolean => 'Z'
  | void => 'V'

/-- The keyword of a type in source texts. -/
def name : Primitive → Text
  | byte => "byte".toList
  | char => "char".toList
  | double => "double".toList
  | float => "float".toList
  | int => "int".toList
  | long => "long".toList
  | short => "short".toList
  | boolean => "boolean".toList
  | void => "void".toList

/-- The type with a letter. -/
def ofCode? (c : Char) : Option Primitive := all.find? fun p => p.code = c

/-- The type with a keyword. -/
def ofName? (s : Text) : Option Primitive := all.find? fun p => p.name = s

theorem ofCode?_code (p : Primitive) : ofCode? p.code = some p := by cases p <;> decide

theorem ofName?_name (p : Primitive) : ofName? p.name = some p := by cases p <;> decide

theorem ofCode?_eq_some_iff {c : Char} {p : Primitive} : ofCode? c = some p ↔ p.code = c :=
  ⟨fun h => by simpa using List.find?_some h, fun h => h ▸ ofCode?_code p⟩

theorem ofName?_eq_some_iff {s : Text} {p : Primitive} : ofName? s = some p ↔ p.name = s :=
  ⟨fun h => by simpa using List.find?_some h, fun h => h ▸ ofName?_name p⟩

end Primitive

end JvmSignature
