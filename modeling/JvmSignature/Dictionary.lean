import JvmSignature.Descriptor.Expansion
import JvmSignature.Table
import JvmSignature.Text.Blank

/-!
# Dictionaries of a log

A structured log names methods, classes and types by ids and explains the ids in a dictionary: each
entry has a kind, an id and attributes. A method entry refers to the id of its class, of its return
type and of its parameter types; following the ids gives the signature of the method.

An id or an attribute that is not there is no fault: the method is then not known.
-/

namespace JvmSignature

/-- What an entry explains. -/
inductive EntryKind where
  | method | klass | type
  deriving DecidableEq, Repr

/-- The attributes of an entry. -/
abbrev Attributes := Table Text Text

/-- The entries of a log, by kind and id. -/
abbrev Dictionary := Table (EntryKind × Text) Attributes

/-- A method that a dictionary names, with its types by name. -/
structure DictionaryMethod where
  className : Text
  memberName : Text
  returnType : Text
  paramTypes : List Text
  deriving DecidableEq, Repr

namespace Dictionary

/-- An attribute of an entry. -/
def attribute? (d : Dictionary) (kind : EntryKind) (id attr : Text) : Option Text :=
  (d.find? (kind, id)).bind fun entry => entry.find? attr

/-- The type of an id, by name: that of a type entry, or else of a class entry. -/
def typeName? (d : Dictionary) (id : Text) : Option Text :=
  let kind : EntryKind := if d.contains (.type, id) then .type else .klass
  (d.attribute? kind id "name".toList).map fun name => Descriptor.expand name.dotted

/-- The ids of the parameter types of a method entry. -/
def paramIds (entry : Attributes) : List Text :=
  match entry.find? "arguments".toList with
  | some ids => ids.words
  | none => ((entry.find? "args".toList).getD []).words

/-- The method of an id. -/
def method? (d : Dictionary) (id : Text) : Option DictionaryMethod := do
  let entry ← d.find? (.method, id)
  let memberName ← entry.find? "name".toList
  let holder ← entry.find? "holder".toList
  let className ← d.attribute? .klass holder "name".toList
  let returnId ← entry.find? "return".toList
  let returnType ← d.typeName? returnId
  let paramTypes ← (paramIds entry).mapM d.typeName?
  return ⟨className.dotted, memberName, returnType, paramTypes⟩

end Dictionary

end JvmSignature
