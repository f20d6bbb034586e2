/-
# Code page 437

The character set of old terminals. Its lower half is ASCII and its upper half holds accented
letters, box drawings and signs. A character it lacks is sent as the substitute control character.

Key definitions: `CodePage437.upperHalf`, `CodePage437.byteOf`, `CodePage437.charOf`.
-/
namespace BulletinBoard.Text.CodePage437

/-- The characters of the bytes from 0x80 on, in order. -/
def upperHalf : List Char := [
  'Ç', 'ü', 'é', 'â', 'ä', 'à', 'å', 'ç', 'ê', 'ë', 'è', 'ï', 'î', 'ì', 'Ä', 'Å',
  'É', 'æ', 'Æ', 'ô', 'ö', 'ò', 'û', 'ù', 'ÿ', 'Ö', 'Ü', '¢', '£', '¥', '₧', 'ƒ',
  'á', 'í', 'ó', 'ú', 'ñ', 'Ñ', 'ª', 'º', '¿', '⌐', '¬', '½', '¼', '¡', '«', '»',
  '░', '▒', '▓', '│', '┤', '╡', '╢', '╖', '╕', '╣', '║', '╗', '╝', '╜', '╛', '┐',
  '└', '┴', '┬', '├', '─', '┼', '╞', '╟', '╚', '╔', '╩', '╦', '╠', '═', '╬', '╧',
  '╨', '╤', '╥', '╙', '╘', '╒', '╓', '╫', '╪', '┘', '┌', '█', '▄', '▌', '▐', '▀',
  'α', 'ß', 'Γ', 'π', 'Σ', 'σ', 'µ', 'τ', 'Φ', 'Θ', 'Ω', 'δ', '∞', 'φ', 'ε', '∩',
  '≡', '±', '≥', '≤', '⌠', '⌡', '÷', '≈', '°', '∙', '·', '√', 'ⁿ', '²', '■', '\u00A0']

/-- The byte sent for a character outside the code page. -/
def substitute : UInt8 := 0x1A

/-- The byte of a character. -/
def byteOf (c : Char) : UInt8 :=
  if c.toNat < 0x80 then UInt8.ofNat c.toNat
  else
    match upperHalf.idxOf? c with
    | some i => UInt8.ofNat (0x80 + i)
    | none => substitute

/-- The character of a byte. -/
def charOf (b : UInt8) : Char :=
  if b.toNat < 0x80 then Char.ofNat b.toNat
  else upperHalf.getD (b.toNat - 0x80) ' '

end BulletinBoard.Text.CodePage437
