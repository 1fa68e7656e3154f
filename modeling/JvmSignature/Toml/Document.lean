import JvmSignature.Toml.Value

/-!
# Documents of TOML

A document is a sequence of lines: headers, pairs of a key and a value, and blank lines. A header
says to which table the pairs after it belong; the pairs before the first header belong to the
document itself. What has been read is the tree of all tables and the path of the last header.
-/

namespace JvmSignature.Toml

/-- What has been read of a document. -/
structure Progress where
  root : Entries
  /-- The path of the table that pairs belong to. -/
  path : List Text

namespace Progress

/-- Opens the table of a header, or one more table of an array. -/
def header? (p : Progress) (isElement : Bool) (path : List Text) (key : Text) : Option Progress :=
  let opened := if isElement then Entries.openElement? key else Entries.openTable? key
  (p.root.within opened path).map fun root => ⟨root, path ++ [key]⟩

/-- Puts a pair into the table of the last header. -/
def pair? (p : Progress) (path : List Text) (key : Text) (d : Datum) : Option Progress :=
  (p.root.within (Entries.addDotted? key (.value d) path) p.path).map fun root =>
    { p with root := root }

/-- Reads a header behind its opening brackets. -/
def readHeader? (p : Progress) (isElement : Bool) (s : Text) : Option (Progress × Text) := do
  let ((path, key), rest) ← key? s
  let rest ← (if isElement then "]]".toList else "]".toList).isPrefixOf? rest
  let rest ← afterLine? rest
  return (← p.header? isElement path key, rest)

/-- Reads a pair of a key and a value. -/
def readPair? (p : Progress) (s : Text) : Option (Progress × Text) := do
  let ((path, key, d), rest) ← Toml.pair? (value? (nestingLimit - 1)) s
  let rest ← afterLine? rest
  return (← p.pair? path key d, rest)

/-- Reads one line. -/
def readLine? (p : Progress) (s : Text) : Option (Progress × Text) :=
  match s with
  | '[' :: '[' :: s => p.readHeader? true s
  | '[' :: s => p.readHeader? false s
  | '#' :: s => (afterLine? ('#' :: s)).map fun rest => (p, rest)
  | '\n' :: s => some (p, s)
  | '\r' :: s => (afterNewline? ('\r' :: s)).map fun rest => (p, rest)
  | s => p.readPair? s

/-- Reads lines to the end. Each takes at least one character, so `fuel` is their number. -/
def readLines? : (fuel : Nat) → Progress → Text → Option Progress
  | 0, _, _ => none
  | fuel + 1, p, s =>
    match skipSpaces s with
    | [] => some p
    | s =>
      match p.readLine? s with
      | none => none
      | some (p, rest) => readLines? fuel p rest

end Progress

/-- The data of a document, which a byte order mark may precede. -/
def document? (s : Text) : Option Datum :=
  let s := (['\uFEFF'].isPrefixOf? s).getD s
  (Progress.readLines? (s.length + 1) ⟨[], []⟩ s).map fun p => .record (fieldsOf p.root)

end JvmSignature.Toml
