/-
# Operations on a run

A run is advanced a bounded number of steps at a time. It takes lines while it is suspended and
templates while it is including, and can be aborted until it has finished. An operation out of turn
changes nothing.

Key definitions: `stepBudget`, `Execution.proceed`, `Execution.advance`, `Execution.deliver`,
`Execution.enter`, `Execution.abort`.
-/
import BulletinBoard.Run.Step

namespace BulletinBoard

open Text Template

/-- How many steps a run makes before others get their turn. -/
def stepBudget : Nat := 4096

namespace Execution

/-- Makes at most `budget` steps, as long as the run is running. One that is still running
afterwards has yielded. `made` steps were made before; how many were made then is given too. -/
def proceed (store : Store) (facts : ChangingFacts) : Nat → Nat → Execution → Advance × Nat
  | 0, made, e => (.quiet e, made)
  | budget + 1, made, e =>
    match e.state with
    | .running =>
      let first := e.step store (facts made)
      let (rest, made) := proceed store facts budget (made + 1) first.execution
      (first.andThen rest, made)
    | _ => (.quiet e, made)

/-- Makes at most `budget` steps while the answers of the board stay as they are. -/
def advance (store : Store) (facts : Facts) (budget : Nat) (e : Execution) : Advance :=
  (e.proceed store facts budget 0).1

/-! ### Input -/

/-- The first key of a line. -/
def firstKey (line : String) : String :=
  String.ofList ((trim line).toList.take 1)

/-- The answer a wait takes from a line, or `none` if it goes on waiting. `old` is the answer
before. -/
def answer (w : Wait) (old : Option String) (line : String) : Option (Option String) :=
  match w with
  | .line => some (some line)
  | .key => some (some (firstKey line))
  | .required => if (trim line).isEmpty then none else some (some line)
  | .enter => some old

/-- Hands a line to a run that waits for one. -/
def deliver (e : Execution) (line : String) : Advance :=
  match e.state with
  | .suspended w =>
    match answer w e.response (trimLineEnd line) with
    | some response => .quiet { e with response, state := .running }
    | none => .quiet e
  | state => ⟨e, [], .warn (.unexpectedLine state)⟩

/-- Hands a template to a run that waits for one. -/
def enter (e : Execution) (t : Template) : Advance :=
  match e.state with
  | .including _ => .quiet { e with frames := ⟨t, 0⟩ :: e.frames, state := .running }
  | state => ⟨e, [], .warn (.unexpectedTemplate t.name state)⟩

/-- Ends a run before its time, unless it has ended. -/
def abort (e : Execution) (error : RunError) : Advance :=
  match e.state with
  | .finished _ => .quiet e
  | _ => e.finish (.aborted error)

end Execution

end BulletinBoard
