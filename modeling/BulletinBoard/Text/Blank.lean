/-
# White space

Which characters count as white space in names, answers and numbers, and how a text is trimmed of
them. The class is the Unicode property White_Space, so it holds the no-break space and the
ideographic space beside the ASCII blanks.

Key definitions: `isBlank`, `trim`, `firstWord?`, `trimLineEnd`.
-/
namespace BulletinBoard.Text

/-- The characters with the property White_Space. -/
def isBlank (c : Char) : Bool :=
  let n := c.toNat
  (0x09 ≤ n && n ≤ 0x0D) || (0x2000 ≤ n && n ≤ 0x200A) ||
    [0x20, 0x85, 0xA0, 0x1680, 0x2028, 0x2029, 0x202F, 0x205F, 0x3000].contains n

/-! ### Trimming -/

/-- Drops the characters of a class from the end of a list. -/
def dropEnd (p : Char → Bool) (s : List Char) : List Char :=
  (s.reverse.dropWhile p).reverse

/-- Drops white space from both ends of a list. -/
def trimChars (s : List Char) : List Char :=
  dropEnd isBlank (s.dropWhile isBlank)

/-- Drops white space from both ends of a text. -/
def trim (s : String) : String :=
  String.ofList (trimChars s.toList)

/-- The first stretch of a text without white space, if there is one. -/
def firstWord? (s : String) : Option String :=
  match (s.toList.dropWhile isBlank).takeWhile (fun c => !isBlank c) with
  | [] => none
  | word => some (String.ofList word)

/-- A line feed or a carriage return. -/
def isLineEnd (c : Char) : Bool :=
  c == '\r' || c == '\n'

/-- Drops every line feed and carriage return from the end of a line. -/
def trimLineEnd (s : String) : String :=
  String.ofList (dropEnd isLineEnd s.toList)

end BulletinBoard.Text
