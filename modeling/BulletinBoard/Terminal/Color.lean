/-
# Colors

The sixteen foreground colors of a terminal, eight of them dim and eight bright.

Key definitions: `Color`, `Color.foreground`.
-/
import BulletinBoard.Text.Utf8

namespace BulletinBoard

open Text

/-- A foreground color. -/
inductive Color where
  | black
  | blue
  | green
  | cyan
  | red
  | magenta
  | brown
  | gray
  | darkGray
  | lightBlue
  | lightGreen
  | lightCyan
  | lightRed
  | lightMagenta
  | yellow
  | white
  deriving DecidableEq, Repr

namespace Color

/-- The parameters of the sequence that selects a color: brightness, then hue. -/
def parameters : Color → String
  | black => "22;30"
  | red => "22;31"
  | green => "22;32"
  | brown => "22;33"
  | blue => "22;34"
  | magenta => "22;35"
  | cyan => "22;36"
  | gray => "22;37"
  | darkGray => "1;30"
  | lightRed => "1;31"
  | lightGreen => "1;32"
  | yellow => "1;33"
  | lightBlue => "1;34"
  | lightMagenta => "1;35"
  | lightCyan => "1;36"
  | white => "1;37"

/-- The sequence that selects a color. -/
def foreground (c : Color) : List UInt8 :=
  Utf8.encode ("\x1b[" ++ c.parameters ++ "m")

end Color

end BulletinBoard
