/-
# Conducting a run

A run against a line. In turns, the run is advanced, what it emits is sent, and then it gets what it
needs: a line, a template, or its next turn. A failure to send, the end of the input during a wait,
a template that cannot be had, and a hangup abort it. The hangup signal is looked at when the run
has yielded and while it waits. If a line and the signal are both there, `hangupFirst` says which
counts.

Key definitions: `Run`, `Run.utter`, `Run.speak`, `Run.listen`, `Run.turn`, `Run.drive`, `conduct`.
-/
import BulletinBoard.Run.Advance
import BulletinBoard.Run.Line

namespace BulletinBoard

open Text Template

/-- Where a conducted run is between two turns. -/
inductive Phase where
  /-- It gets another turn. -/
  | going
  /-- It is over. -/
  | over
  /-- It waits for a caller who has fallen silent and a signal that never comes. -/
  | stuck
  deriving DecidableEq, Repr

/-- A conducted run between two turns. -/
structure Run where
  execution : Execution
  store : Store
  line : Line
  log : Log
  phase : Phase
  /-- How many steps were made. -/
  steps : Nat

/-- What is known of a run when it is over. -/
structure Report where
  outcome : Outcome
  response : Option String
  deriving DecidableEq, Repr

namespace Run

/-- Takes over what an operation led to. -/
def take (r : Run) (a : Advance) : Run :=
  { r with execution := a.execution, log := r.log ++ a.log }

/-- Takes over how far the run was advanced and sends what it emitted. A failure to send aborts it
and ends the turns. -/
def utter (r : Run) (a : Advance) : Run :=
  let r := r.take a
  if a.bytes.isEmpty then r
  else
    match r.line.send a.bytes with
    | (line, none) => { r with line }
    | (line, some text) =>
      { ({ r with line }).take (a.execution.abort (.output text)) with phase := .over }

/-- Advances the run and sends what it emits. -/
def speak (facts : ChangingFacts) (budget : Nat) (r : Run) : Run :=
  let (a, steps) := r.execution.proceed r.store facts budget r.steps
  { r with steps }.utter a

/-- Hangs up, or waits for ever where no signal comes. -/
def fallSilent (r : Run) : Run :=
  match r.line.signal with
  | .never => { r with phase := .stuck }
  | .whenSilent | .given => r.take (r.execution.abort .cancelled)

/-- Waits for a line. -/
def listen (hangupFirst : Bool) (r : Run) : Run :=
  let (heard, line) := r.line.hear
  if hangupFirst && r.line.signal == .given then r.take (r.execution.abort .cancelled)
  else
    let r := { r with line }
    match heard with
    | .bytes b => r.take (r.execution.deliver (Utf8.decodeLossy b))
    | .closed | .broken => r.take (r.execution.abort .inputClosed)
    | .silence => r.fallSilent

/-- Goes on with what the store has for the template the run waits for. -/
def receive (r : Run) (reply : Store.Reply RunError) : Run :=
  let r := { r with store := reply.store, log := r.log ++ reply.log }
  match reply.result with
  | .ok t => r.take (r.execution.enter t)
  | .error e => r.take (r.execution.abort e)

/-- Fetches the template the run waits for. -/
def fetch (disk : Disk) (r : Run) (name : String) : Run :=
  r.receive (r.store.getOrLoad disk name)

/-- Gives the run what it needs after it was advanced. -/
def respond (disk : Disk) (hangupFirst : Bool) (r : Run) : Run :=
  match r.execution.state with
  | .finished _ => { r with phase := .over }
  | .running => if r.line.signal = .given then r.take (r.execution.abort .cancelled) else r
  | .including name => r.fetch disk name
  | .suspended _ => r.listen hangupFirst

/-- One turn. -/
def turn (disk : Disk) (facts : ChangingFacts) (hangupFirst : Bool) (r : Run) : Run :=
  match r.phase with
  | .going =>
    let spoken := r.speak facts stepBudget
    match spoken.phase with
    | .going => spoken.respond disk hangupFirst
    | _ => spoken
  | _ => r

/-- At most so many turns. `races` says turn by turn which of a line and the signal counts. -/
def drive (disk : Disk) (facts : ChangingFacts) (races : Nat → Bool) : Nat → Run → Run
  | 0, r => r
  | turns + 1, r =>
    match r.phase with
    | .going => drive disk facts (fun n => races (n + 1)) turns (r.turn disk facts (races 0))
    | _ => r

/-- The report of a run. -/
def report (r : Run) : Report :=
  ⟨r.execution.outcome?.getD .completed, r.execution.response⟩

end Run

/-- What a run leaves behind. -/
structure Conducted where
  report : Report
  store : Store
  line : Line
  log : Log
  /-- How many steps were made. -/
  steps : Nat

/-- What is left behind by a run that is over. -/
def Run.conducted? (r : Run) : Option Conducted :=
  match r.phase with
  | .over => some ⟨r.report, r.store, r.line, r.log, r.steps⟩
  | _ => none

/-- A run before its first turn by what the store has for its template, or what is left behind if
the template cannot be had. -/
def Run.opening (charset : Charset) (line : Line) (name : String) (reply : Store.Reply RunError) :
    Run ⊕ Conducted :=
  match reply.result with
  | .ok t => .inl ⟨.start t charset, reply.store, line, reply.log, .going, 0⟩
  | .error e =>
    .inr ⟨⟨.aborted e, none⟩, reply.store, line,
      reply.log ++ ⟨[.cannotRun name e], Execution.tallyOf (.aborted e)⟩, 0⟩

/-- A run of the template of a name before its first turn. -/
def Run.begin (disk : Disk) (charset : Charset) (store : Store) (line : Line) (name : String) :
    Run ⊕ Conducted :=
  opening charset line name (store.getOrLoad disk name)

/-- Runs a template against a line, in at most so many turns. There is no answer if the run is not
over by then. -/
def conduct (disk : Disk) (facts : ChangingFacts) (races : Nat → Bool) (turns : Nat)
    (charset : Charset) (store : Store) (line : Line) (name : String) : Option Conducted :=
  match Run.begin disk charset store line name with
  | .inl r => (r.drive disk facts races turns).conducted?
  | .inr c => some c

end BulletinBoard
