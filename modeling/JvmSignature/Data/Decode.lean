import JvmSignature.AccessFlags
import JvmSignature.Data.Datum

/-!
# Decoding data

Decoders for single values and for records. The fields of a record are visited in the order of the
document and the first that does not decode is the fault; fields that are missing are a fault only
after that, in the order in which the record declares them. A list may stand for a record, its items
for the fields in the order of their declaration.
-/

namespace JvmSignature

/-- Reads a value of a document. -/
abbrev Decoder (α : Type) := DataFormat → Datum → Except DecodeError α

namespace Decoder

variable {α : Type}

/-- The fault of a value that is not of the kind wanted. -/
def mismatch (expected : String) (format : DataFormat) (d : Datum) : Except DecodeError α :=
  .error (.invalidType (d.shown format) expected.toList)

/-! ## Single values -/

/-- A text, called `expected` in messages. -/
def textCalled (expected : String) : Decoder Text
  | _, .text s => .ok s
  | format, d => mismatch expected format d

def text : Decoder Text := textCalled "a string"

def bool : Decoder Bool
  | _, .bool b => .ok b
  | format, d => mismatch "a boolean" format d

/-- A word of flags, written as a number. -/
def flags : Decoder AccessFlags
  | format, .integer n =>
    if 0 ≤ n ∧ n < 0x10000 then .ok (BitVec.ofInt 16 n)
    else .error (.invalidValue ((Datum.integer n).shown format) "u16".toList)
  | format, d => mismatch "u16" format d

def list (item : Decoder α) : Decoder (List α)
  | format, .list items => items.mapM (item format)
  | format, d => mismatch "a sequence" format d

/-- A value that may be absent. -/
def option (value : Decoder α) : Decoder (Option α)
  | _, .null => .ok none
  | format, d => (value format d).map some

/-- One of several names, alone or as the only name of a record without content. -/
def variant (cases : List (Text × α)) : Decoder α
  | _, .text name => choose name
  | format, .record [(name, content)] =>
    match choose name, content with
    | .ok a, .null => .ok a
    | .ok _, d => mismatch "unit" format d
    | .error e, _ => .error e
  | format, .record fields =>
    .error (.invalidValue ((Datum.record fields).shown format) "map with a single key".toList)
  | format, d => mismatch "string or map" format d
where
  choose (name : Text) : Except DecodeError α :=
    match cases.lookup name with
    | some a => .ok a
    | none => .error (.unknownVariant name (cases.map Prod.fst))

/-! ## Records -/

/-- A field of a record: its name, and whether a value fits it. -/
structure Field where
  name : Text
  check : DataFormat → Datum → Except DecodeError Unit

/-- The field of a name whose value is read by a decoder. -/
def field (name : String) (value : Decoder α) : Field :=
  ⟨name.toList, fun format d => (value format d).map fun _ => ()⟩

/-- The values of a record, with the fault of a field that is not among them. -/
structure Values where
  format : DataFormat
  values : List (Text × Datum)
  missing : Text → DecodeError

/-- The value of a field that has to be there. -/
def Values.required (v : Values) (name : String) (value : Decoder α) : Except DecodeError α :=
  match v.values.lookup name.toList with
  | some d => value v.format d
  | none => .error (v.missing name.toList)

/-- The value of a field that has a default. -/
def Values.optional (v : Values) (name : String) (value : Decoder α) (default : α) :
    Except DecodeError α :=
  match v.values.lookup name.toList with
  | some d => value v.format d
  | none => .ok default

/-- A type of records: its name in messages and its fields. -/
structure RecordType where
  name : String
  fields : List Field
  allowsUnknown : Bool

namespace RecordType

/-- Whether the value of a field fits it; a field that is not known may be allowed. -/
def checkField (r : RecordType) (format : DataFormat) (name : Text) (d : Datum) :
    Except DecodeError Unit :=
  match r.fields.find? fun f => f.name = name with
  | some f => f.check format d
  | none =>
    if r.allowsUnknown then .ok ()
    else .error (.unknownField name (r.fields.map Field.name))

/-- The fault of a list that has no item for a field. -/
def tooShort (r : RecordType) (name : Text) : DecodeError :=
  let count := r.fields.length
  .invalidLength ((r.fields.map Field.name).idxOf name)
    ("struct ".toList ++ r.name.toList ++ " with ".toList ++ (toString count).toList ++
      (if count = 1 then " element".toList else " elements".toList))

/-- The decoder of a type of records, which builds the record from the values of its fields. -/
def decoder (r : RecordType) (build : Values → Except DecodeError α) : Decoder α
  | format, .record values => do
    values.forM fun (name, d) => r.checkField format name d
    build ⟨format, values, .missingField⟩
  | format, .list items => do
    let values := (r.fields.map Field.name).zip items
    values.forM fun (name, d) => r.checkField format name d
    -- Surplus items are a fault only where everything else fits.
    let record ← build ⟨format, values, r.tooShort⟩
    if items.length > r.fields.length ∧ !format.allowsSurplus then
      .error (.invalidLength items.length "fewer elements in array".toList)
    else .ok record
  | format, d => mismatch ("struct " ++ r.name) format d

end RecordType

end Decoder

end JvmSignature
