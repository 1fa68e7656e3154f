import JvmSignature.Decimal.Shortest
import JvmSignature.Json.Number
import JvmSignature.Json.Quoted

/-!
# Values of JSON

A value is an array, an object, a string, a number, a truth value or `null`. Arrays and objects
nest, but not without bound: `value?` takes the number of levels that may still open, and is a
recursion on it. Within one level the items are read with as much fuel as there are characters, and
each takes at least one.

The fields of an object are a set: data visits them in the order of their names, and of several
fields of one name the last counts.
-/

namespace JvmSignature.Json

/-- Values have fewer levels than this. -/
def nestingLimit : Nat := 128

def isSpace (c : Char) : Bool := c == ' ' || c == '\t' || c == '\n' || c == '\r'

def skipSpaces (s : Text) : Text := s.dropWhile isSpace

/-! ## Arrays and objects -/

/-- The items of an array that has any, up to its end. -/
def items? (value : Reader Datum) : (fuel : Nat) → Reader (List Datum)
  | 0, _ => none
  | fuel + 1, s =>
    match value (skipSpaces s) with
    | none => none
    | some (d, rest) =>
      match skipSpaces rest with
      | ',' :: rest => (items? value fuel rest).map fun (ds, rest) => (d :: ds, rest)
      | ']' :: rest => some ([d], rest)
      | _ => none

/-- An array, read behind its opening bracket. -/
def array? (value : Reader Datum) (s : Text) : Option (Datum × Text) :=
  match skipSpaces s with
  | ']' :: rest => some (.list [], rest)
  | s => (items? value s.length s).map fun (ds, rest) => (.list ds, rest)

/-- The fields with one more, in the order of their names, in the place of one of that name. -/
def putField (name : Text) (d : Datum) : List (Text × Datum) → List (Text × Datum)
  | [] => [(name, d)]
  | (k, e) :: rest =>
    if k = name then (name, d) :: rest
    else if name < k then (name, d) :: (k, e) :: rest
    else (k, e) :: putField name d rest

/-- A field: its name, a colon and its value. -/
def field? (value : Reader Datum) (s : Text) : Option ((Text × Datum) × Text) :=
  match skipSpaces s with
  | '"' :: s =>
    match string? s with
    | none => none
    | some (name, rest) =>
      match skipSpaces rest with
      | ':' :: rest => (value (skipSpaces rest)).map fun (d, rest) => ((name, d), rest)
      | _ => none
  | _ => none

/-- The fields of an object that has any, up to its end, put to those that are there. -/
def fields? (value : Reader Datum) :
    (fuel : Nat) → List (Text × Datum) → Reader (List (Text × Datum))
  | 0, _, _ => none
  | fuel + 1, fields, s =>
    match field? value s with
    | none => none
    | some ((name, d), rest) =>
      match skipSpaces rest with
      | ',' :: rest => fields? value fuel (putField name d fields) rest
      | '\x7d' :: rest => some (putField name d fields, rest)
      | _ => none

/-- An object, read behind its opening brace. -/
def object? (value : Reader Datum) (s : Text) : Option (Datum × Text) :=
  match skipSpaces s with
  | '\x7d' :: rest => some (.record [], rest)
  | s => (fields? value s.length [] s).map fun (fields, rest) => (.record fields, rest)

/-! ## Values -/

/-- A value that holds no other values. -/
def scalar? (s : Text) : Option (Datum × Text) :=
  match s with
  | '"' :: s => (string? s).map fun (t, rest) => (.text t, rest)
  | 'n' :: 'u' :: 'l' :: 'l' :: rest => some (.null, rest)
  | 't' :: 'r' :: 'u' :: 'e' :: rest => some (.bool true, rest)
  | 'f' :: 'a' :: 'l' :: 's' :: 'e' :: rest => some (.bool false, rest)
  | s => number? s

/-- A value within which `nesting` levels of arrays and objects may open. -/
def value? : (nesting : Nat) → Reader Datum
  | nesting, '[' :: s =>
    match nesting with
    | 0 => none
    | nesting + 1 => array? (value? nesting) s
  | nesting, '\x7b' :: s =>
    match nesting with
    | 0 => none
    | nesting + 1 => object? (value? nesting) s
  | _, s => scalar? s

/-- The value that a text is, with blanks around it. -/
def document? (s : Text) : Option Datum :=
  match value? (nestingLimit - 1) (skipSpaces s) with
  | some (d, rest) => if rest.all isSpace then some d else none
  | none => none

/-- How data is decoded from JSON: fractions are compact, and surplus items are a fault. -/
def dataFormat : DataFormat := ⟨Decimal.compactText, false⟩

end JvmSignature.Json
