import JvmSignature.Text.Reader

/-!
# Blanks, lines and comments of TOML

TOML knows two blanks, two line ends and comments up to the end of the line. What stands in a
comment or a string is any character but control characters, of which only the tab is allowed.
-/

namespace JvmSignature.Toml

/-- A blank within a line. -/
def isSpace (c : Char) : Bool := c == ' ' || c == '\t'

/-- A character of a comment or of a string on one line. -/
def isVisible (c : Char) : Bool := c == '\t' || (0x20 ≤ c.toNat && c.toNat != 0x7F)

def skipSpaces (s : Text) : Text := s.dropWhile isSpace

/-- What follows the end of a line. -/
def afterNewline? : Text → Option Text
  | '\n' :: s => some s
  | '\r' :: '\n' :: s => some s
  | _ => none

theorem length_afterNewline? {s rest : Text} (h : afterNewline? s = some rest) :
    rest.length < s.length := by
  unfold afterNewline? at h
  split at h
  · cases h
    exact Nat.lt_succ_self _
  · cases h
    exact Nat.lt_of_lt_of_le (Nat.lt_succ_self _) (Nat.le_succ _)
  · cases h

/-- What follows a comment, if one stands here. -/
def skipComment : Text → Text
  | '#' :: s => s.dropWhile isVisible
  | s => s

theorem length_skipComment_le (s : Text) : (skipComment s).length ≤ s.length := by
  unfold skipComment
  split
  · exact Nat.le_succ_of_le (List.dropWhile_suffix _).length_le
  · exact Nat.le_refl _

/-- What follows blanks, a comment and the end of the line or of the text. -/
def afterLine? (s : Text) : Option Text :=
  match skipComment (skipSpaces s) with
  | [] => some []
  | rest => afterNewline? rest

/-- What follows blanks, line ends, and comments that end with a line. -/
def skipLines (s : Text) : Text :=
  match _h : afterNewline? (skipComment (skipSpaces s)) with
  | some rest => skipLines rest
  | none => skipSpaces s
termination_by s.length
decreasing_by
  exact Nat.lt_of_lt_of_le (length_afterNewline? _h)
    (Nat.le_trans (length_skipComment_le _) (List.dropWhile_suffix _).length_le)

/-- What follows blanks and line ends. -/
def skipWhite : Text → Text
  | '\r' :: '\n' :: s => skipWhite s
  | c :: s => if isSpace c || c == '\n' then skipWhite s else c :: s
  | [] => []

theorem length_skipWhite_le (s : Text) : (skipWhite s).length ≤ s.length := by
  fun_induction skipWhite s <;> simp_all <;> omega

end JvmSignature.Toml
