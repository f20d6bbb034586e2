/-
# Texts in log lines

A text shown in a log line must not break the line. Control characters and backslashes are written
as escapes, and a long text is cut after a fixed number of characters and marked with an ellipsis.

Key definitions: `LogForm.escapeChar`, `LogForm.escape`, `LogForm.preview`.
-/
import BulletinBoard.Text.Utf8

namespace BulletinBoard.Text.LogForm

/-- The control characters of ASCII and of the upper Latin half. -/
def isControl (c : Char) : Bool :=
  c.toNat < 0x20 || (0x7F ≤ c.toNat && c.toNat ≤ 0x9F)

/-- The characters of a text that a log line shows. -/
def shown : Nat := 120

/-- The mark that more of the text follows. -/
def ellipsis : Char := '…'

/-- A hexadecimal digit, with capital letters. -/
def hexDigit (n : Nat) : Char :=
  (if n < 10 then Char.ofNat (48 + n) else Char.ofNat (55 + n))

/-- One character as a log line shows it. -/
def escapeChar (c : Char) : List Char :=
  match c with
  | '\\' => ['\\', '\\']
  | '\n' => ['\\', 'n']
  | '\r' => ['\\', 'r']
  | '\t' => ['\\', 't']
  | c =>
    if isControl c then ['\\', 'x', hexDigit (c.toNat / 16), hexDigit (c.toNat % 16)]
    else [c]

/-- A text as a log line shows it. -/
def escape (s : String) : String :=
  let body := (s.toList.take shown).flatMap escapeChar
  String.ofList (if shown < s.toList.length then body ++ [ellipsis] else body)

/-- Bytes as a log line shows them. -/
def preview (bytes : List UInt8) : String :=
  escape (Utf8.decodeLossy bytes)

end BulletinBoard.Text.LogForm
