import JvmSignature.Toml.Moment
import JvmSignature.Toml.Number
import JvmSignature.Toml.Tree

/-!
# Keys and values of TOML

A value is a string, a number, a moment, a truth value, an array or an inline table. Arrays and
inline tables nest, but not without bound: `value?` takes the number of levels that may still open,
and is a recursion on it. Within one level the items are read with as much fuel as there are
characters, and each takes at least one.
-/

namespace JvmSignature.Toml

/-- Keys have fewer parts than this, and values fewer levels. -/
def nestingLimit : Nat := 80

/-! ## Keys -/

def isBareKeyChar (c : Char) : Bool :=
  ('a' ≤ c && c ≤ 'z') || ('A' ≤ c && c ≤ 'Z') || c.isDigit || c == '_' || c == '-'

/-- One part of a key. -/
def keyPart? : Reader Text
  | '"' :: s => basic? s
  | '\'' :: s => literal? s
  | s =>
    match s.takeWhile isBareKeyChar with
    | [] => none
    | part => some (part, s.dropWhile isBareKeyChar)

/-- The parts of a key, with dots and blanks between them; at most `fuel` of them. -/
def keyParts? : (fuel : Nat) → Reader (List Text)
  | 0, _ => none
  | fuel + 1, s =>
    match keyPart? (skipSpaces s) with
    | none => none
    | some (part, rest) =>
      match skipSpaces rest with
      | '.' :: rest => (keyParts? fuel rest).map fun (parts, rest) => (part :: parts, rest)
      | rest => some ([part], rest)

/-- A key: the path to the table that it belongs to, and its last part. -/
def key? (s : Text) : Option ((List Text × Text) × Text) :=
  match keyParts? (nestingLimit - 1) s with
  | some (parts, rest) => parts.getLast?.map fun last => ((parts.dropLast, last), rest)
  | none => none

/-- A key, the equals sign and a value. -/
def pair? (value : Reader Datum) (s : Text) : Option ((List Text × Text × Datum) × Text) :=
  match key? s with
  | some ((path, key), '=' :: rest) =>
    (value (skipSpaces rest)).map fun (d, rest) => ((path, key, d), skipSpaces rest)
  | _ => none

/-! ## Arrays and inline tables -/

/-- The items of an array up to its end, with or without a comma behind the last of them. -/
def items? (value : Reader Datum) : (fuel : Nat) → Reader (List Datum)
  | 0, _ => none
  | fuel + 1, s =>
    match skipLines s with
    | ']' :: rest => some ([], rest)
    | s =>
      match value s with
      | none => none
      | some (d, rest) =>
        match skipLines rest with
        | ',' :: rest => (items? value fuel rest).map fun (ds, rest) => (d :: ds, rest)
        | ']' :: rest => some ([d], rest)
        | _ => none

/-- The pairs of an inline table up to its end, put into the entries that are there. -/
def pairs? (value : Reader Datum) : (fuel : Nat) → Entries → Reader Entries
  | 0, _, _ => none
  | fuel + 1, entries, s =>
    match pair? value s with
    | none => none
    | some ((path, key, d), rest) =>
      match entries.addDotted? key (.value d) path with
      | none => none
      | some entries =>
        match rest with
        | ',' :: rest => pairs? value fuel entries rest
        | '\x7d' :: rest => some (entries, rest)
        | _ => none

/-- An inline table, read behind its opening brace. -/
def inlineTable? (value : Reader Datum) (s : Text) : Option (Datum × Text) :=
  match skipSpaces s with
  | '\x7d' :: rest => some (.record [], rest)
  | s => (pairs? value s.length [] s).map fun (entries, rest) => (.record (fieldsOf entries), rest)

/-! ## Values -/

/-- The name under which a moment, as a record, holds its text. -/
def momentField : Text := "$__toml_private_datetime".toList

/-- A value that holds no other values. -/
def scalar? (s : Text) : Option (Datum × Text) :=
  match s with
  | 't' :: 'r' :: 'u' :: 'e' :: rest => some (.bool true, rest)
  | 'f' :: 'a' :: 'l' :: 's' :: 'e' :: rest => some (.bool false, rest)
  | '"' :: _ => (string? s).map fun (t, rest) => (.text t, rest)
  | '\'' :: _ => (string? s).map fun (t, rest) => (.text t, rest)
  | s =>
    -- A date starts like a number, so it has to be tried first.
    match moment? s with
    | some (t, rest) => some (.record [(momentField, .text t)], rest)
    | none => number? s

/-- A value within which `nesting` levels of arrays and inline tables may open. -/
def value? : (nesting : Nat) → Reader Datum
  | nesting, '[' :: s =>
    match nesting with
    | 0 => none
    | nesting + 1 =>
      (items? (value? nesting) (s.length + 1) s).map fun (ds, rest) => (.list ds, rest)
  | nesting, '\x7b' :: s =>
    match nesting with
    | 0 => none
    | nesting + 1 => inlineTable? (value? nesting) s
  | _, s => scalar? s

end JvmSignature.Toml
