/-
# Executions

A run of a template, between two instructions. Templates that include others wait below them on a
stack. The position in a template belongs to the run, so any number of runs can share a template.

Key definitions: `Frame`, `Execution`, `Emission`, `Execution.start`, `Execution.finish`,
`Execution.leave`.
-/
import BulletinBoard.Log
import BulletinBoard.Text.Charset

namespace BulletinBoard

open Text Template

/-- A template that is being run, and the position of its next instruction. -/
structure Frame where
  template : Template
  position : Nat
  deriving DecidableEq, Repr

/-- A run between two instructions. The innermost frame comes first. -/
structure Execution where
  frames : List Frame
  charset : Charset
  state : RunState
  /-- The color selected last. -/
  color : Option Color
  /-- The color remembered. -/
  saved : Option Color
  /-- The caller's last answer. -/
  response : Option String
  /-- Whether a gate hides the rest of the line. -/
  hidden : Bool
  deriving DecidableEq, Repr

/-- Something an instruction sends: a text, which the character set turns into bytes, or the bytes
of a control sequence. -/
inductive Emission where
  | text (s : String)
  | control (bytes : List UInt8)
  deriving DecidableEq, Repr

/-- The bytes of an emission. -/
def Emission.bytes (charset : Charset) : Emission → List UInt8
  | text s => charset.encode s
  | control bytes => bytes

/-- What an operation on a run leads to: the run, what it sends, and what there is to tell. -/
structure Advance where
  execution : Execution
  sent : List Emission
  log : Log
  deriving DecidableEq, Repr

namespace Advance

/-- Nothing sent and nothing to tell. -/
def quiet (e : Execution) : Advance := ⟨e, [], .empty⟩

/-- Something sent and nothing to tell. -/
def send (e : Execution) (sent : List Emission) : Advance := ⟨e, sent, .empty⟩

/-- An operation, and another on the run it led to. -/
def andThen (a b : Advance) : Advance := ⟨b.execution, a.sent ++ b.sent, a.log ++ b.log⟩

/-- The bytes sent. -/
def bytes (a : Advance) : List UInt8 :=
  a.sent.flatMap (Emission.bytes a.execution.charset)

variable {a b c : Advance}

@[simp] theorem execution_andThen : (a.andThen b).execution = b.execution := rfl

@[simp] theorem quiet_andThen (e : Execution) : (quiet e).andThen b = b := by
  simp [andThen, quiet]

theorem andThen_assoc : (a.andThen b).andThen c = a.andThen (b.andThen c) := by
  simp only [andThen, List.append_assoc, Log.append_assoc]

theorem bytes_andThen (h : a.execution.charset = b.execution.charset) :
    (a.andThen b).bytes = a.bytes ++ b.bytes := by
  unfold bytes andThen
  rw [List.flatMap_append, h]

end Advance

namespace Execution

/-- A run at the first instruction of a template. -/
def start (t : Template) (charset : Charset) : Execution :=
  ⟨[⟨t, 0⟩], charset, .running, none, none, none, false⟩

/-- The position in the innermost template. -/
def position? (e : Execution) : Option Nat :=
  e.frames.head?.map Frame.position

/-- How the run ended, if it has. -/
def outcome? (e : Execution) : Option Outcome :=
  match e.state with
  | .finished o => some o
  | _ => none

/-- The same run at another position of the innermost template. -/
def goTo (e : Execution) (position : Nat) : Execution :=
  match e.frames with
  | [] => e
  | f :: below => { e with frames := { f with position } :: below }

/-- The same run behind the current instruction. -/
def next (e : Execution) : Execution :=
  match e.frames with
  | [] => e
  | f :: below => { e with frames := { f with position := f.position + 1 } :: below }

/-- Going elsewhere in a template keeps the stack as high as it is. -/
@[simp] theorem length_frames_goTo (e : Execution) (position : Nat) :
    (e.goTo position).frames.length = e.frames.length := by
  unfold goTo
  split <;> simp_all

/-- Going on keeps the stack as high as it is. -/
@[simp] theorem length_frames_next (e : Execution) : e.next.frames.length = e.frames.length := by
  unfold next
  split <;> simp_all

@[simp] theorem state_goTo (e : Execution) (position : Nat) :
    (e.goTo position).state = e.state := by
  unfold goTo
  split <;> rfl

@[simp] theorem state_next (e : Execution) : e.next.state = e.state := by
  unfold next
  split <;> rfl

theorem goTo_of_frames {e : Execution} {f : Frame} {below : List Frame} (h : e.frames = f :: below)
    (position : Nat) : e.goTo position = { e with frames := { f with position } :: below } := by
  unfold goTo
  rw [h]

theorem next_of_frames {e : Execution} {f : Frame} {below : List Frame}
    (h : e.frames = f :: below) :
    e.next = { e with frames := { f with position := f.position + 1 } :: below } := by
  unfold next
  rw [h]

/-- What is counted when a run ends. -/
def tallyOf : Outcome → Tally
  | .completed => { Tally.zero with completed := 1 }
  | .halted _ => { Tally.zero with halted := 1 }
  | .aborted _ => { Tally.zero with aborted := 1 }

/-- What is told when a run ends. -/
def logOf (o : Outcome) : Log :=
  match o with
  | .aborted e => ⟨[.aborted e], tallyOf o⟩
  | _ => .count (tallyOf o)

/-- Ends a run. -/
def finish (e : Execution) (o : Outcome) : Advance :=
  ⟨{ e with state := .finished o }, [], logOf o⟩

/-- Leaves the innermost template. A hidden line does not outlive the template its gate stands in.
The run ends with `o` if no template is left. -/
def leave (e : Execution) (o : Outcome) : Advance :=
  let left := { e with frames := e.frames.tail, hidden := false }
  if left.frames.isEmpty then left.finish o else .quiet left

end Execution

end BulletinBoard
