/-
# What instructions send to the terminal

The control sequence of a color or control instruction, and the color it selects. A color word and
the color argument of a `fg` instruction go through the same vocabulary.

Key definitions: `Color.ofWord?`, `Instruction.color?`, `Instruction.sequence`.
-/
import BulletinBoard.Run.Outcome
import BulletinBoard.Template.Instruction
import BulletinBoard.Text.Blank

namespace BulletinBoard

open Text Template

/-- The color a word names. -/
def Color.ofWord? (word : String) : Option Color :=
  match Kind.ofWord? word with
  | some (.color c) => some c
  | _ => none

namespace Template.Instruction

/-- The color an instruction selects, if it selects one. -/
def color? (i : Instruction) : Except Fault (Option Color) :=
  match i.kind with
  | .color c => .ok (some c)
  | .foreground =>
    match Color.ofWord? (i.arg 0) with
    | some c => .ok (some c)
    | none => .error (.invalidArgument "fg" (i.arg 0))
  | _ => .ok none

/-- A row or column given as an argument. -/
def coordinate (i : Instruction) (position : Nat) : Except Fault Nat :=
  match Numeral.read? Numeral.max16 (trim (i.arg position)) with
  | some n => .ok n
  | none => .error (.invalidArgument "locate" (i.arg position))

/-- The control sequence of an instruction. -/
def sequence (i : Instruction) : Except Fault (List UInt8) := do
  match ← i.color? with
  | some c => .ok c.foreground
  | none =>
    match i.kind with
    | .control c => .ok c.sequence
    | .locate =>
      let row ← i.coordinate 0
      let column ← i.coordinate 1
      .ok (placeCursor row column)
    | kind => .error (.notControl kind)

end Template.Instruction

end BulletinBoard
