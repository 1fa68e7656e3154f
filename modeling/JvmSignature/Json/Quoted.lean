import JvmSignature.Text.Reader

/-!
# Strings of JSON

A string stands between double quotes. Quotes, backslashes and control characters are escaped by a
backslash, any other character may be. An escape in hexadecimal names a code unit of UTF-16, so a
character of more than four digits takes a pair of them, and half of a pair is no character.

The reader ends because what an escape or a character leaves to read is shorter.
-/

namespace JvmSignature.Json

/-! ## Escapes -/

/-- Whether a code unit is the first half of a pair. -/
def isLeading (unit : Nat) : Bool := 0xD800 ≤ unit && unit < 0xDC00

/-- Whether a code unit is the second half of a pair. -/
def isTrailing (unit : Nat) : Bool := 0xDC00 ≤ unit && unit < 0xE000

/-- The character of a pair of code units. -/
def pairedChar (leading trailing : Nat) : Char :=
  Char.ofNat (0x10000 + 0x400 * (leading - 0xD800) + (trailing - 0xDC00))

/-- The second half of a pair, which is an escape of its own. -/
def trailing? : Reader Nat
  | '\\' :: 'u' :: s => (Text.hexNumber? 4 s).filter fun found => isTrailing found.1
  | _ => none

/-- The character of one code unit or of a pair, read behind the `u` of the first escape. -/
def codeUnits? (s : Text) : Option (Char × Text) :=
  match Text.hexNumber? 4 s with
  | none => none
  | some (unit, rest) =>
    if isLeading unit then
      (trailing? rest).map fun (trailing, rest) => (pairedChar unit trailing, rest)
    else if isTrailing unit then none
    else some (Char.ofNat unit, rest)

/-- The character that an escape stands for, read behind its backslash. -/
def escape? : Reader Char
  | '"' :: s => some ('"', s)
  | '\\' :: s => some ('\\', s)
  | '/' :: s => some ('/', s)
  | 'b' :: s => some ('\x08', s)
  | 'f' :: s => some ('\x0c', s)
  | 'n' :: s => some ('\n', s)
  | 'r' :: s => some ('\r', s)
  | 't' :: s => some ('\t', s)
  | 'u' :: s => codeUnits? s
  | _ => none

theorem length_trailing? {s rest : Text} {unit : Nat} (h : trailing? s = some (unit, rest)) :
    rest.length ≤ s.length := by
  unfold trailing? at h
  split at h
  · have hn := Text.length_hexNumber? (Option.filter_eq_some_iff.mp h).1
    simp only [List.length_cons]
    omega
  · cases h

theorem length_codeUnits? {s rest : Text} {c : Char} (h : codeUnits? s = some (c, rest)) :
    rest.length ≤ s.length := by
  unfold codeUnits? at h
  split at h
  · cases h
  · next unit r hn =>
    have hlen := Text.length_hexNumber? hn
    split at h
    · obtain ⟨⟨_, t⟩, ht, he⟩ := Option.map_eq_some_iff.mp h
      have hr : t = rest := congrArg Prod.snd he
      have htrailing := length_trailing? ht
      rw [hr] at htrailing
      omega
    · split at h
      · cases h
      · have hr : r = rest := congrArg Prod.snd (Option.some.inj h)
        rw [hr] at hlen
        omega

theorem length_escape? {s rest : Text} {c : Char} (h : escape? s = some (c, rest)) :
    rest.length < s.length := by
  unfold escape? at h
  split at h <;> first
    | (cases h; exact Nat.lt_succ_self _)
    | exact Nat.lt_succ_of_le (length_codeUnits? h)
    | cases h

/-! ## Strings -/

/-- A string, read behind its opening quote. -/
def string? (s : Text) : Option (Text × Text) :=
  match s with
  | [] => none
  | '"' :: rest => some ([], rest)
  | '\\' :: rest =>
    match _h : escape? rest with
    | none => none
    | some (c, rest) => (string? rest).map fun (t, rest) => (c :: t, rest)
  | c :: rest =>
    if c.toNat < 0x20 then none else (string? rest).map fun (t, rest) => (c :: t, rest)
termination_by s.length
decreasing_by
  · exact Nat.lt_succ_of_lt (length_escape? _h)
  · exact Nat.lt_succ_self _

end JvmSignature.Json
