import JvmSignature.Data.Records
import JvmSignature.Decimal.Shortest
import JvmSignature.Toml.Document

/-!
# Settings documents

Settings are written in TOML, in a file or elsewhere. A file that is not there and bytes that are no
text are faults of the file, any other fault is one of the document.
-/

namespace JvmSignature

/-- Why a document gives no settings. -/
inductive SettingsError where
  /-- The file gives no text. -/
  | unreadable (path cause : Text)
  /-- The text is not TOML. -/
  | notToml
  /-- The document does not fit the settings. -/
  | unfit (fault : DecodeError)
  deriving DecidableEq, Repr

/-- The fault in words. What is wrong with a text that is not TOML is not told. -/
def SettingsError.message : SettingsError → Text
  | unreadable path cause => "failed to read config file ".toList ++ path ++ ": ".toList ++ cause
  | notToml => "failed to parse config: ".toList
  | unfit fault => "failed to parse config: ".toList ++ fault.message

/-- How data is decoded from TOML: fractions are written out, and surplus items do not count. -/
def Toml.dataFormat : DataFormat := ⟨Decimal.plainText, true⟩

namespace Settings

/-- The settings of a document. -/
def ofDocument (s : Text) : Except SettingsError Settings :=
  match Toml.document? s with
  | none => .error .notToml
  | some d =>
    match decoder Toml.dataFormat d with
    | .ok settings => .ok settings
    | .error fault => .error (.unfit fault)

/-- The settings of a file, whose bytes are given if it is there. -/
def ofFile (path : Text) (bytes? : Option ByteArray) : Except SettingsError Settings :=
  match bytes? with
  | none => .error (.unreadable path "No such file or directory (os error 2)".toList)
  | some bytes =>
    match String.fromUTF8? bytes with
    | none => .error (.unreadable path "stream did not contain valid UTF-8".toList)
    | some s => ofDocument s.toList

end Settings

end JvmSignature
