/-
# Handlers

What an instruction does on an open line: it checks, sends, tells and changes the run in an order of
its own, and says where the run goes from there. One that fails leaves what it has done until then.

Key definitions: `Flow`, `Handler`, `opens?`, `Handler.control`, `Handler.repeatSequence`,
`Handler.includeNamed`, `Instruction.handle`.
-/
import BulletinBoard.Privilege
import BulletinBoard.Run.Execution
import BulletinBoard.Template.Store
import BulletinBoard.Terminal.Sequence

namespace BulletinBoard

open Text Template

/-- How often a sequence may be repeated. -/
def repeatLimit : Nat := 1024

/-- How many templates may be stacked. -/
def includeLimit : Nat := 8

/-- Where a run goes from an instruction. -/
inductive Flow where
  /-- Behind the instruction. -/
  | next
  /-- To a position of the same template. -/
  | jump (position : Nat)
  /-- Into the template that was put on top. -/
  | entered
  /-- Nowhere until the template of a name is there. -/
  | load (name : String)
  /-- Behind the instruction, once the caller has answered. -/
  | suspend (w : Wait)
  /-- Out of the template. -/
  | exit
  | halt (r : HaltReason)
  | abort (e : RunError)
  deriving DecidableEq, Repr

/-- A part of what an instruction does. It goes through, or fails and leaves what was done until
then. -/
abbrev Handler := EStateM Fault Advance

namespace Handler

/-- What a check finds, or its fault. -/
def check {α : Type} : Except Fault α → Handler α
  | .ok a => pure a
  | .error fault => throw fault

/-- The run as it is now. -/
def current : Handler Execution := return (← get).execution

/-- Changes the run. -/
def change (g : Execution → Execution) : Handler Unit :=
  modify fun a => { a with execution := g a.execution }

/-- Sends something. -/
def send (m : Emission) : Handler Unit :=
  modify fun a => { a with sent := a.sent ++ [m] }

/-- Tells something. -/
def tell (log : Log) : Handler Unit :=
  modify fun a => { a with log := a.log ++ log }

end Handler

/-! ### Facts -/

/-- A fact about the caller or the board. -/
def known (facts : Facts) (f : Fact) : Except Fault String :=
  match facts f with
  | some value => .ok value
  | none => .error (.factUnavailable f)

/-- The caller's privilege level. -/
def privilege (facts : Facts) : Except Fault Nat := do
  let text ← known facts .privilegeLevel
  match Privilege.read? text with
  | some level => .ok level
  | none => .error (.invalidArgument "priv_level" text)

/-- The caller's privilege level, the lowest if it cannot be told. -/
def privilegeOrLowest (facts : Facts) : Nat :=
  match privilege facts with
  | .ok level => level
  | .error _ => 0

/-- Whether a fact is as a test wants it. A fact without an answer counts as empty. -/
def Template.FactTest.holds (facts : Facts) (t : FactTest) : Bool :=
  sameLetters ((facts t.fact).getD "") t.value != t.negated

/-- Whether a privilege gate opens, `none` if it asks for no level. -/
def opens? (facts : Facts) (wanted : String) : Option Bool :=
  (Privilege.read? wanted).map fun level => decide (level ≤ privilegeOrLowest facts)

/-- A count given as an argument of a repeated sequence. -/
def Template.Instruction.count (i : Instruction) (position : Nat) : Except Fault Nat :=
  match Numeral.read? Numeral.max64 (i.arg position) with
  | some n => .ok n
  | none => .error (.invalidArgument "repeatseq" (i.arg position))

/-! ### Handlers -/

namespace Handler

/-- Sends the control sequence of an instruction, and remembers the color it selects. -/
def control (i : Instruction) : Handler Unit := do
  let bytes ← check i.sequence
  if let some selected ← check i.color? then
    change fun e => { e with color := some selected }
  send (.control bytes)

/-- Selects the color that was saved. -/
def loadColor : Handler Unit := do
  if let some saved := (← current).saved then
    change fun e => { e with color := some saved }
    send (.control saved.foreground)

/-- Sends the caller's last answer. -/
def response : Handler Unit := do
  if let some answer := (← current).response then
    send (.text answer)

/-- Sends something so often. -/
def sendTimes (m : Emission) : Nat → Handler Unit
  | 0 => pure ()
  | n + 1 => do
    send m
    sendTimes m n

/-- Sends the beginning of a text repeatedly and the rest of it once. -/
def repeatSequence (i : Instruction) : Handler Unit := do
  let length ← check (i.count 0)
  let times ← check (i.count 2)
  if repeatLimit < times then
    throw (.invalidArgument "repeatseq" (i.arg 2))
  let text := (i.arg 1).toList
  sendTimes (.text (String.ofList (text.take length))) times
  send (.text (String.ofList (text.drop length)))

/-- Whether a privilege gate opens. One that asks for no level does not, and tells. -/
def privilegePasses (facts : Facts) (i : Instruction) : Handler Bool :=
  match opens? facts (i.arg 0) with
  | some passes => pure passes
  | none => do
    tell (.warn (.invalidGate i.kind (i.arg 0)))
    return false

/-- Hides the rest of the line behind a gate that stays closed. -/
def gate (passes : Bool) : Handler Unit := do
  unless passes do
    change fun e => { e with hidden := true }

/-- Where the label that an instruction names is. -/
def branch (t : Template) (label : String) : Flow :=
  match t.label? label with
  | some position => .jump position
  | none => .abort (.unresolvedLabel t.name label)

/-- Puts a template of the store on top of the others, or asks for it if the store lacks it. The run
comes back behind the current instruction. -/
def includeNamed (store : Store) (name : String) : Handler Flow := do
  if includeLimit ≤ (← current).frames.length then
    throw (.includeDepth includeLimit)
  change Execution.next
  match store.lookup? name with
  | some t => do
    change fun e => { e with frames := ⟨t, 0⟩ :: e.frames }
    return .entered
  | none => return .load name

/-- What the board does not act on is told and counted. -/
def unsupported (t : Template) (i : Instruction) : Handler Unit :=
  tell ⟨[.unsupported t.name i.kind], { Tally.zero with unsupported := 1 }⟩

/-- Does something and goes on behind the instruction. -/
def onward (x : Handler Unit) : Handler Flow := do
  x
  return .next

end Handler

open Handler in
/-- What an instruction of a template does on an open line, and where the run goes from it. -/
def Template.Instruction.handle (store : Store) (facts : Facts) (t : Template) (i : Instruction) :
    Handler Flow :=
  match i.kind with
  | .text => onward (send (.text i.word))
  | .color _ | .foreground | .control _ | .locate => onward (control i)
  | .saveColor => onward (change fun e => { e with saved := e.color })
  | .loadColor => onward loadColor
  | .fact f => onward do
    send (.text (← check (known facts f)))
  | .classAbbreviation => onward do
    send (.text (Privilege.abbreviation (← check (privilege facts))))
  | .className => onward do
    send (.text (Privilege.className (← check (privilege facts))))
  | .response => onward response
  | .goto | .jump => return branch t (i.arg 0)
  | .top => return .jump 0
  | .label => return .next
  | .repeatSequence => onward (repeatSequence i)
  | .privilegeGate _ => onward do
    gate (← privilegePasses facts i)
  | .factGate g => onward (gate (g.test.holds facts))
  | .prompt p => return .suspend p.wait
  | .includes => includeNamed store (i.arg 0)
  | .halt .exit => return .exit
  | .halt reason => return .halt reason
  | .declareLabel | .comment | .unsupported _ => onward (unsupported t i)

end BulletinBoard
