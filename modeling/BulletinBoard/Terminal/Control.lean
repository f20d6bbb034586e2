/-
# Control sequences

What moves the cursor, clears the screen, rings the bell or changes how text shows. Each is a fixed
sequence of bytes, the placing of the cursor apart, which is given a row and a column.

Key definitions: `Control`, `Control.sequence`, `placeCursor`.
-/
import BulletinBoard.Text.Utf8

namespace BulletinBoard

open Text

/-- A control with a fixed sequence. -/
inductive Control where
  | blink
  | bright
  | dim
  | steady
  | bell
  | backspace
  | clearLine
  | clearBelow
  | clearScreen
  | carriageReturn
  | lineFeed
  | tab
  | up
  | down
  | right
  | left
  deriving DecidableEq, Repr

namespace Control

/-- The characters of a control. -/
def characters : Control → String
  | blink => "\x1b[5m"
  | bright => "\x1b[1m"
  | dim => "\x1b[2m"
  | steady => "\x1b[25m"
  | bell => "\x07"
  | backspace => "\x08"
  | clearLine => "\x1b[K"
  | clearBelow => "\x1b[J"
  | clearScreen => "\x1b[2J\x1b[1;1H"
  | carriageReturn => "\r"
  | lineFeed => "\n"
  | tab => "\t"
  | up => "\x1b[A"
  | down => "\x1b[B"
  | right => "\x1b[C"
  | left => "\x1b[D"

/-- The sequence of a control. -/
def sequence (c : Control) : List UInt8 :=
  Utf8.encode c.characters

end Control

/-- The sequence that puts the cursor at a row and a column. -/
def placeCursor (row column : Nat) : List UInt8 :=
  Utf8.encode ("\x1b[" ++ toString row ++ ";" ++ toString column ++ "H")

end BulletinBoard
