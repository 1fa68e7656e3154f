import JvmSignature.Text.Quoted

/-!
# Data

A value as a document holds it, before it is known what it means: records of classes, members and
settings are decoded from data. A fault of decoding says what was found and what was wanted, in the
words that `DecodeError.message` gives.
-/

namespace JvmSignature

/-- A value of a document. -/
inductive Datum where
  | null
  | bool (value : Bool)
  | integer (value : Int)
  | float (value : Float)
  | text (value : Text)
  | list (items : List Datum)
  /-- Named values, in the order in which the document is visited. -/
  | record (fields : List (Text × Datum))
  deriving Inhabited

/-- What distinguishes the kinds of documents where data is decoded. -/
structure DataFormat where
  /-- How a message writes a number with a fraction. -/
  floatText : Float → Text
  /-- Whether a list that stands for a record may hold more items than the record has fields. -/
  allowsSurplus : Bool

/-- Why a value does not decode. -/
inductive DecodeError where
  | invalidType (found expected : Text)
  | invalidValue (found expected : Text)
  | invalidLength (length : Nat) (expected : Text)
  | missingField (field : Text)
  | unknownField (field : Text) (known : List Text)
  | unknownVariant (variant : Text) (known : List Text)
  deriving DecidableEq, Repr

/-! ## Messages -/

/-- A name in backquotes. -/
def backquoted (s : Text) : Text := '\x60' :: s ++ ['\x60']

namespace DecodeError

/-- The names that would have been right: one, one or the other, or one of several. -/
def alternatives (known : List Text) : Text :=
  match known with
  | [a] => backquoted a
  | [a, b] => backquoted a ++ " or ".toList ++ backquoted b
  | names => "one of ".toList ++ ", ".toList.intercalate (names.map backquoted)

/-- The fault in words. -/
def message : DecodeError → Text
  | invalidType found expected =>
    "invalid type: ".toList ++ found ++ ", expected ".toList ++ expected
  | invalidValue found expected =>
    "invalid value: ".toList ++ found ++ ", expected ".toList ++ expected
  | invalidLength length expected =>
    "invalid length ".toList ++ (toString length).toList ++ ", expected ".toList ++ expected
  | missingField field => "missing field ".toList ++ backquoted field
  | unknownField field known =>
    "unknown field ".toList ++ backquoted field ++ ", expected ".toList ++ alternatives known
  | unknownVariant variant known =>
    "unknown variant ".toList ++ backquoted variant ++ ", expected ".toList ++ alternatives known

end DecodeError

/-- A value as a message shows it. -/
def Datum.shown (format : DataFormat) : Datum → Text
  | null => "null".toList
  | bool b => "boolean ".toList ++ backquoted (toString b).toList
  | integer n => "integer ".toList ++ backquoted (toString n).toList
  | float x => "floating point ".toList ++ backquoted (format.floatText x)
  | text s => "string ".toList ++ s.quoted
  | list _ => "sequence".toList
  | record _ => "map".toList

end JvmSignature
