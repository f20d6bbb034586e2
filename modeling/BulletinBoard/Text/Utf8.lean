/-
# UTF-8

Texts leave the board as UTF-8, and what callers send is read as UTF-8. The reader is a machine that
takes one byte at a time. Where a byte cannot follow, the bytes of the broken character together
become one replacement character and the byte is read afresh. A strict reading is one that breaks
nowhere.

Key definitions: `Utf8.encode`, `Utf8.scan`, `Utf8.decodeLossy`, `Utf8.decode?`.
-/
namespace BulletinBoard.Text.Utf8

/-- The bytes of a text. -/
def encode (s : String) : List UInt8 :=
  s.toList.flatMap String.utf8EncodeChar

/-- Where the reader stands: the bytes a character still owes, the range the next of them must lie
in, and the bits read so far. -/
structure Unfinished where
  owed : Nat
  low : Nat
  high : Nat
  bits : Nat
  deriving DecidableEq, Repr

/-- What the first byte of a character says. -/
inductive Lead where
  | whole (c : Char)
  | opens (p : Unfinished)
  | invalid
  deriving DecidableEq, Repr

/-- Reads a byte that stands where a character begins. The shortest forms alone are allowed, no
surrogates, and nothing above the last code point. -/
def lead (byte : UInt8) : Lead :=
  let b := byte.toNat
  if b < 0x80 then .whole (Char.ofNat b)
  else if b < 0xC2 then .invalid
  else if b < 0xE0 then .opens ⟨0, 0x80, 0xBF, b - 0xC0⟩
  else if b = 0xE0 then .opens ⟨1, 0xA0, 0xBF, 0⟩
  else if b = 0xED then .opens ⟨1, 0x80, 0x9F, 0xD⟩
  else if b < 0xF0 then .opens ⟨1, 0x80, 0xBF, b - 0xE0⟩
  else if b = 0xF0 then .opens ⟨2, 0x90, 0xBF, 0⟩
  else if b < 0xF4 then .opens ⟨2, 0x80, 0xBF, b - 0xF0⟩
  else if b = 0xF4 then .opens ⟨2, 0x80, 0x8F, 4⟩
  else .invalid

/-- What a byte adds to an unfinished character: a finished one, a longer unfinished one, or `none`
where it cannot follow. `owed` counts the bytes due after the next one. -/
def Unfinished.next? (p : Unfinished) (byte : UInt8) : Option (Char ⊕ Unfinished) :=
  let b := byte.toNat
  if b < p.low || p.high < b then none
  else
    let bits := p.bits * 64 + (b - 0x80)
    match p.owed with
    | 0 => some (.inl (Char.ofNat bits))
    | owed + 1 => some (.inr ⟨owed, 0x80, 0xBF, bits⟩)

/-- A byte that stands where a character begins: what it completes, `none` standing for a broken
character, and where the reader then stands. -/
def fresh (byte : UInt8) : List (Option Char) × Option Unfinished :=
  match lead byte with
  | .whole c => ([some c], none)
  | .opens p => ([], some p)
  | .invalid => ([none], none)

/-- One byte, wherever the reader stands. -/
def step (state : Option Unfinished) (byte : UInt8) : List (Option Char) × Option Unfinished :=
  match state with
  | none => fresh byte
  | some p =>
    match p.next? byte with
    | some (.inl c) => ([some c], none)
    | some (.inr q) => ([], some q)
    | none => (none :: (fresh byte).1, (fresh byte).2)

/-- The characters of a byte sequence, `none` standing for each broken one. -/
def scan (state : Option Unfinished) : List UInt8 → List (Option Char)
  | [] => if state.isSome then [none] else []
  | b :: rest => (step state b).1 ++ scan (step state b).2 rest

/-- The character that stands for a broken one. -/
def replacement : Char := '\uFFFD'

/-- Reads bytes as text, with a replacement character for each broken one. -/
def decodeLossy (bytes : List UInt8) : String :=
  String.ofList ((scan none bytes).map fun c => c.getD replacement)

/-- Reads bytes as text, if no character is broken. -/
def decode? (bytes : List UInt8) : Option String :=
  ((scan none bytes).mapM id).map String.ofList

end BulletinBoard.Text.Utf8
