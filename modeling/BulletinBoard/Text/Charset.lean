/-
# Terminal character sets

The two ways a text goes out to a caller's terminal.

Key definitions: `Charset`, `Charset.encode`.
Key theorems: `Charset.encode_append`.
-/
import BulletinBoard.Text.CodePage437
import BulletinBoard.Text.Utf8

namespace BulletinBoard.Text

/-- The character set of a terminal. -/
inductive Charset where
  | utf8
  | cp437
  deriving DecidableEq, Repr

/-- The bytes a text is sent as. -/
def Charset.encode : Charset → String → List UInt8
  | .utf8, s => Utf8.encode s
  | .cp437, s => s.toList.map CodePage437.byteOf

/-- Texts sent one after the other are sent as one text. -/
theorem Charset.encode_append (c : Charset) (s t : String) :
    c.encode (s ++ t) = c.encode s ++ c.encode t := by
  cases c <;> simp [encode, Utf8.encode]

end BulletinBoard.Text
