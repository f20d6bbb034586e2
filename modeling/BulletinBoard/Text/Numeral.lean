/-
# Unsigned decimal numerals

A numeral is one or more ASCII digits, perhaps after a plus sign. It is read against a greatest
value, and one above it is no numeral. Leading zeros do not matter.

Key definitions: `Numeral.ofDigits?`, `Numeral.read?`.
Key theorems: `Numeral.read?_le`.
-/
namespace BulletinBoard.Text.Numeral

/-- The greatest number of sixteen bits. -/
def max16 : Nat := 65535

/-- The greatest number of thirty-two bits. -/
def max32 : Nat := 4294967295

/-- The greatest number of sixty-four bits. -/
def max64 : Nat := 18446744073709551615

/-- Reads ASCII digits onto the value read so far. -/
def ofDigits? (value : Nat) : List Char → Option Nat
  | [] => some value
  | c :: rest => if c.isDigit then ofDigits? (value * 10 + (c.toNat - 48)) rest else none

/-- What follows the plus sign a numeral may begin with. -/
def unsigned : List Char → List Char
  | '+' :: rest => rest
  | chars => chars

/-- Reads a numeral of at most `greatest`. -/
def read? (greatest : Nat) (s : String) : Option Nat :=
  let digits := unsigned s.toList
  if digits.isEmpty then none
  else (ofDigits? 0 digits).filter (· ≤ greatest)

/-- What is read is within the bound. -/
theorem read?_le {greatest n : Nat} {s : String} (h : read? greatest s = some n) :
    n ≤ greatest := by
  unfold read? at h
  dsimp only at h
  split at h
  · cases h
  · simpa using (Option.filter_eq_some_iff.mp h).2

end BulletinBoard.Text.Numeral
