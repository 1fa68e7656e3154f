import JvmSignature.ClassStub

/-!
# Class tables

The classes that are known, each under its own name. Adding a class hides an earlier one of the
same name, so a table is the list of what was added, the latest first.
-/

namespace JvmSignature

/-- The known classes, the latest first. -/
structure ClassTable where
  stubs : List ClassStub
  deriving DecidableEq

namespace ClassTable

def empty : ClassTable := ⟨[]⟩

/-- The table with one more class, in the place of an earlier one of that name. -/
def add (t : ClassTable) (stub : ClassStub) : ClassTable := ⟨stub :: t.stubs⟩

/-- The class of a name. -/
def stub? (t : ClassTable) (name : Text) : Option ClassStub :=
  t.stubs.find? fun stub => stub.binaryName = name

def contains (t : ClassTable) (name : Text) : Bool := (t.stub? name).isSome

theorem binaryName_of_stub? {t : ClassTable} {name : Text} {stub : ClassStub}
    (h : t.stub? name = some stub) : stub.binaryName = name := by
  simpa using List.find?_some h

theorem stub?_add (t : ClassTable) (stub : ClassStub) (name : Text) :
    (t.add stub).stub? name = if stub.binaryName = name then some stub else t.stub? name := by
  by_cases h : stub.binaryName = name <;> simp [add, stub?, h]

end ClassTable

end JvmSignature
