import JvmSignature.Toml.Lexical

/-!
# Strings of TOML

A string stands between double quotes, where a backslash starts an escape, or between single quotes,
where every character stands for itself. Three quotes open a string of several lines: a line end
right behind them does not count, the others become line feeds, and one or two quotes more may stand
before the three that close it.

Every reader below ends because what an escape or a character leaves to read is shorter.
-/

namespace JvmSignature.Toml

/-! ## Escapes -/

/-- The character whose number is the next `n` hexadecimal digits. -/
def codePoint? (n : Nat) (s : Text) : Option (Char × Text) :=
  match Text.hexNumber? n s with
  | none => none
  | some (code, rest) => if code.isValidChar then some (Char.ofNat code, rest) else none

/-- The character that an escape stands for, read behind its backslash. -/
def escape? : Reader Char
  | 'b' :: s => some ('\x08', s)
  | 't' :: s => some ('\t', s)
  | 'n' :: s => some ('\n', s)
  | 'f' :: s => some ('\x0c', s)
  | 'r' :: s => some ('\r', s)
  | '"' :: s => some ('"', s)
  | '\\' :: s => some ('\\', s)
  | 'u' :: s => codePoint? 4 s
  | 'U' :: s => codePoint? 8 s
  | _ => none

theorem length_codePoint? {n : Nat} {s rest : Text} {c : Char}
    (h : codePoint? n s = some (c, rest)) : rest.length ≤ s.length := by
  unfold codePoint? at h
  split at h
  · cases h
  · next hn =>
    split at h
    · cases h
      exact Text.length_hexNumber? hn ▸ Nat.le_add_right _ _
    · cases h

theorem length_escape? {s rest : Text} {c : Char} (h : escape? s = some (c, rest)) :
    rest.length < s.length := by
  unfold escape? at h
  split at h <;> first
    | (cases h; exact Nat.lt_succ_self _)
    | exact Nat.lt_succ_of_le (length_codePoint? h)
    | cases h

/-! ## Strings on one line -/

/-- A string in double quotes, read behind the first of them. -/
def basic? (s : Text) : Option (Text × Text) :=
  match s with
  | [] => none
  | '"' :: rest => some ([], rest)
  | '\\' :: rest =>
    match _h : escape? rest with
    | none => none
    | some (c, rest) => (basic? rest).map fun (t, rest) => (c :: t, rest)
  | c :: rest =>
    if isVisible c then (basic? rest).map fun (t, rest) => (c :: t, rest) else none
termination_by s.length
decreasing_by
  · exact Nat.lt_succ_of_lt (length_escape? _h)
  · exact Nat.lt_succ_self _

/-- A string in single quotes, read behind the first of them. -/
def literal? : Reader Text
  | [] => none
  | '\'' :: rest => some ([], rest)
  | c :: rest =>
    if isVisible c then (literal? rest).map fun (t, rest) => (c :: t, rest) else none

/-! ## Strings on several lines -/

/-- What follows a backslash at the end of a line: all blanks and line ends after it. -/
def continuation? (s : Text) : Option Text := (afterNewline? (skipSpaces s)).map skipWhite

theorem length_continuation? {s rest : Text} (h : continuation? s = some rest) :
    rest.length < s.length := by
  obtain ⟨r, hr, rfl⟩ := Option.map_eq_some_iff.mp h
  exact Nat.lt_of_le_of_lt (length_skipWhite_le r)
    (Nat.lt_of_lt_of_le (length_afterNewline? hr) (List.dropWhile_suffix _).length_le)

/-- The closing quotes of a string on several lines, with the quotes before them. -/
def closing? (quote : Char) : Reader Text
  | a :: b :: c :: s =>
    if a = quote ∧ b = quote ∧ c = quote then
      -- The last three quotes close the string, so what stands before them belongs to it.
      match s with
      | d :: e :: rest =>
        if d = quote ∧ e = quote then some ([quote, quote], rest)
        else if d = quote then some ([quote], e :: rest)
        else some ([], d :: e :: rest)
      | [d] => if d = quote then some ([quote], []) else some ([], [d])
      | [] => some ([], [])
    else none
  | _ => none

/-- A string of several lines in double quotes, read behind the first line end. -/
def multiBasic? (s : Text) : Option (Text × Text) :=
  match closing? '"' s with
  | some closed => some closed
  | none =>
    match s with
    | [] => none
    | '\\' :: rest =>
      match _h : continuation? rest with
      | some rest => multiBasic? rest
      | none =>
        match _h : escape? rest with
        | none => none
        | some (c, rest) => (multiBasic? rest).map fun (t, rest) => (c :: t, rest)
    | '\n' :: rest => (multiBasic? rest).map fun (t, rest) => ('\n' :: t, rest)
    | '\r' :: '\n' :: rest => (multiBasic? rest).map fun (t, rest) => ('\n' :: t, rest)
    | c :: rest =>
      if isVisible c then (multiBasic? rest).map fun (t, rest) => (c :: t, rest) else none
termination_by s.length
decreasing_by
  · exact Nat.lt_succ_of_lt (length_continuation? _h)
  · exact Nat.lt_succ_of_lt (length_escape? _h)
  · exact Nat.lt_succ_self _
  · exact Nat.lt_succ_of_lt (Nat.lt_succ_self _)
  · exact Nat.lt_succ_self _

/-- A string of several lines in single quotes, read behind the first line end. -/
def multiLiteral? (s : Text) : Option (Text × Text) :=
  match closing? '\'' s with
  | some closed => some closed
  | none =>
    match s with
    | [] => none
    | '\n' :: rest => (multiLiteral? rest).map fun (t, rest) => ('\n' :: t, rest)
    | '\r' :: '\n' :: rest => (multiLiteral? rest).map fun (t, rest) => ('\n' :: t, rest)
    | c :: rest =>
      if isVisible c then (multiLiteral? rest).map fun (t, rest) => (c :: t, rest) else none

/-- The text behind three opening quotes, without a line end right behind them. -/
def afterOpening (s : Text) : Text := (afterNewline? s).getD s

/-- A string of any kind. -/
def string? : Reader Text
  | '"' :: '"' :: '"' :: s => multiBasic? (afterOpening s)
  | '\'' :: '\'' :: '\'' :: s => multiLiteral? (afterOpening s)
  | '"' :: s => basic? s
  | '\'' :: s => literal? s
  | _ => none

end JvmSignature.Toml
