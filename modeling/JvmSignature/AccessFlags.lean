import JvmSignature.Text.Basic

/-!
# Access flags

A class file describes each class and each method by a word of flag bits. Nine of them are written
as keywords in a declaration; they are the *modifiers* of a method.
-/

namespace JvmSignature

/-- A word of access flags. -/
abbrev AccessFlags := BitVec 16

namespace AccessFlags

/-- Seen from everywhere. -/
def publicFlag : AccessFlags := 0x0001

/-- Belongs to the class and not to its objects. -/
def staticFlag : AccessFlags := 0x0008

/-- The last parameter takes any number of arguments. -/
def varargsFlag : AccessFlags := 0x0080

/-- An interface and no class. -/
def interfaceFlag : AccessFlags := 0x0200

/-- Without a body, or without objects of its own. -/
def abstractFlag : AccessFlags := 0x0400

/-- The keywords of declarations and their bits, in the order in which they are written. -/
def keywords : List (Text × AccessFlags) :=
  [("public".toList, 0x0001), ("private".toList, 0x0002), ("protected".toList, 0x0004),
   ("static".toList, 0x0008), ("final".toList, 0x0010), ("synchronized".toList, 0x0020),
   ("native".toList, 0x0100), ("abstract".toList, 0x0400), ("strictfp".toList, 0x0800)]

/-- The bits that a declaration writes as keywords. -/
def modifiers : AccessFlags := 0x0D3F

/-- The modifier bits are those of the keywords. -/
theorem modifiers_eq : modifiers = keywords.foldl (fun flags k => flags ||| k.2) 0 := by decide

/-- The bit of a keyword. -/
def ofKeyword? (s : Text) : Option AccessFlags := keywords.lookup s

/-- Whether a bit is set. -/
def has (flags bit : AccessFlags) : Bool := flags &&& bit != 0

/-- The keywords of the bits that are set, separated by spaces. -/
def toKeywords (flags : AccessFlags) : Text :=
  [' '].intercalate ((keywords.filter fun k => has flags k.2).map Prod.fst)

end AccessFlags

end JvmSignature
