/-
# Quoted texts

A text between double quotes, as warnings show names and labels that may hold anything. Quotes and
backslashes get a backslash, four controls their letter, and every other character that would not
show on its own stands as its number in braces.

Key definitions: `Quoted.escapeChar`, `Quoted.quote`.
-/
import BulletinBoard.Text.Printable

namespace BulletinBoard.Text.Quoted

/-- A character by its number. -/
def byNumber (c : Char) : List Char :=
  ['\\', 'u', '\x7b'] ++ Nat.toDigits 16 c.toNat ++ ['\x7d']

/-- One character inside the quotes. -/
def escapeChar (c : Char) : List Char :=
  match c with
  | '\x00' => ['\\', '0']
  | '\t' => ['\\', 't']
  | '\r' => ['\\', 'r']
  | '\n' => ['\\', 'n']
  | '\x22' => ['\\', '\x22']
  | '\\' => ['\\', '\\']
  | c => if isExtender c || !isPrintable c then byNumber c else [c]

/-- A text between double quotes. -/
def quote (s : String) : String :=
  String.ofList ('\x22' :: s.toList.flatMap escapeChar ++ ['\x22'])

end BulletinBoard.Text.Quoted
