/-
# Letter case

Instruction words, color names, class names and fact values are compared without regard to the case
of the ASCII letters. Letters beyond ASCII are compared as they are.

Key definitions: `foldCase`, `sameLetters`.
-/
namespace BulletinBoard.Text

/-- A text with its ASCII capitals made small. -/
def foldCase (s : String) : String :=
  String.ofList (s.toList.map Char.toLower)

/-- Whether two texts differ at most in the case of ASCII letters. -/
def sameLetters (s t : String) : Bool :=
  foldCase s == foldCase t

end BulletinBoard.Text
