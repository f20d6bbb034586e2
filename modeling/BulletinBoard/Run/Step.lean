/-
# One instruction

Carrying out the instruction a run stands at. What a handler did before it failed stays done, and
the run goes on behind the instruction. Behind a gate that stays closed nothing is carried out until
the line ends.

Key definitions: `Execution.hide`, `Execution.follow`, `Execution.attempt`, `Execution.step`.
-/
import BulletinBoard.Run.Handler

namespace BulletinBoard

open Text Template

namespace Execution

/-! ### Hidden lines -/

/-- What follows the first line feed of a text, if it has one. -/
def afterLineFeed? (text : String) : Option String :=
  match text.toList.dropWhile (· != '\n') with
  | [] => none
  | _ :: rest => some (String.ofList rest)

/-- Passes over an instruction on a hidden line. A line feed in a text, or the instruction that
sends one, ends the line; what follows it in the text is sent. -/
def hide (e : Execution) (i : Instruction) : Advance :=
  match i.kind with
  | .text =>
    match afterLineFeed? i.word with
    | some rest => .send { e.next with hidden := false } [.text rest]
    | none => .quiet e.next
  | .control .lineFeed => .quiet { e.next with hidden := false }
  | _ => .quiet e.next

/-! ### Stepping -/

/-- Goes from the instruction at a position where its handler says. -/
def follow (e : Execution) (position : Nat) : Flow → Advance
  | .next => .quiet (e.goTo (position + 1))
  | .jump target => .quiet (e.goTo target)
  | .entered => .quiet e
  | .load name => .quiet { e with state := .including name }
  | .suspend w => .quiet { e.goTo (position + 1) with state := .suspended w }
  | .exit => e.leave (.halted .exit)
  | .halt r => e.finish (.halted r)
  | .abort error => e.finish (.aborted error)

/-- Carries out an instruction, as far as it goes, and goes on from it. A fault is told. -/
def attempt (store : Store) (facts : Facts) (e : Execution) (f : Frame) (i : Instruction) :
    Advance :=
  match i.handle store facts f.template (.quiet e) with
  | .ok flow done => done.andThen (done.execution.follow f.position flow)
  | .error fault done => done.andThen
      ⟨done.execution.goTo (f.position + 1), [],
        .warn (.fault f.template.name i.kind f.position fault)⟩

/-- One step of a run that is running: the instruction it stands at, or the end of a template. -/
def step (store : Store) (facts : Facts) (e : Execution) : Advance :=
  match e.frames with
  | [] => e.finish .completed
  | f :: _ =>
    match f.template.at? f.position with
    | none => e.leave .completed
    | some i => if e.hidden then e.hide i else e.attempt store facts f i

end Execution

end BulletinBoard
