import JvmSignature.Text.Basic
import JvmSignature.Text.Printable

/-!
# Quoted text

The form in which a message shows a text: between double quotes, with the quote, the backslash and
the usual control characters behind a backslash, and every other character that is not printable by
its number in hexadecimal.
-/

namespace JvmSignature.Text

/-- One character inside the quotes. -/
def quotedChar (c : Char) : Text :=
  if c = '\x00' then ['\\', '0']
  else if c = '\t' then ['\\', 't']
  else if c = '\r' then ['\\', 'r']
  else if c = '\n' then ['\\', 'n']
  else if c = '"' then ['\\', '"']
  else if c = '\\' then ['\\', '\\']
  else if isPrintable c then [c]
  else "\\u\x7b".toList ++ Nat.toDigits 16 c.toNat ++ ['\x7d']

/-- The text between quotes. -/
def quoted (s : Text) : Text := '"' :: s.flatMap quotedChar ++ ['"']

end JvmSignature.Text
