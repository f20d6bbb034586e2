/-
# Privilege

Callers have a privilege level. Levels form classes: a class begins at its least level and ends
below the next one. A level is written as a numeral or as the name of a class.

Key definitions: `Privilege.classes`, `Privilege.className`, `Privilege.abbreviation`,
`Privilege.read?`.
-/
import BulletinBoard.Text.Blank
import BulletinBoard.Text.Letters
import BulletinBoard.Text.Numeral

namespace BulletinBoard.Privilege

open Text

/-- A class of levels. -/
structure Rank where
  least : Nat
  name : String
  short : String
  deriving DecidableEq, Repr

/-- The lowest class. -/
def lowest : Rank := ⟨0, "Twit", "Twt"⟩

/-- The classes, from the lowest to the highest. -/
def classes : List Rank := [
  lowest, ⟨10, "Disgrace", "Dis"⟩, ⟨20, "Limited", "Lim"⟩, ⟨30, "Normal", "Nor"⟩,
  ⟨40, "Worthy", "Wor"⟩, ⟨50, "Privil", "Pri"⟩, ⟨60, "Favored", "Fav"⟩, ⟨70, "Extra", "Ext"⟩,
  ⟨80, "Clerk", "Clk"⟩, ⟨90, "AsstSysop", "Ast"⟩, ⟨100, "Sysop", "Sys"⟩]

/-- The level of new callers, unless the settings give another. -/
def normal : Nat := 30

/-- The level of the one who runs the board. -/
def sysop : Nat := 100

/-- The class a level belongs to: the highest that begins at or below it. -/
def classOf (level : Nat) : Rank :=
  (classes.reverse.find? fun r => r.least ≤ level).getD lowest

/-- The name of a level's class. -/
def className (level : Nat) : String := (classOf level).name

/-- The short name of a level's class. -/
def abbreviation (level : Nat) : String := (classOf level).short

/-- Reads a level. A numeral of at most sixteen bits is taken before a class name. -/
def read? (text : String) : Option Nat :=
  let word := trim text
  match Numeral.read? Numeral.max16 word with
  | some level => some level
  | none => (classes.find? fun r => sameLetters r.name word).map Rank.least

end BulletinBoard.Privilege
