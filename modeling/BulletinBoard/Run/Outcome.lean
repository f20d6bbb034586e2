/-
# How runs stand and how they end

Key definitions: `RunError`, `Outcome`, `RunState`, `RunState.describe`, `Fault`.
-/
import BulletinBoard.Template.Vocabulary
import BulletinBoard.Text.Quoted

namespace BulletinBoard

open Text Template

/-- What ends a run before its time. -/
inductive RunError where
  /-- No template of the name is at hand. -/
  | notCompiled (name : String)
  /-- A template goes to a label it does not have. -/
  | unresolvedLabel (template label : String)
  /-- The call was hung up. -/
  | cancelled
  /-- The caller's input ended during a wait. -/
  | inputClosed
  /-- The output refused bytes. -/
  | output (text : String)
  deriving DecidableEq, Repr

/-- The text of an error. -/
def RunError.message : RunError → String
  | notCompiled name => "template not compiled: " ++ name
  | unresolvedLabel template label =>
    "unresolved label '" ++ label ++ "' in template " ++ template
  | cancelled => "input wait cancelled"
  | inputClosed => "input closed while waiting"
  | output text => "output error: " ++ text

/-- How a run ended. -/
inductive Outcome where
  | completed
  | halted (r : HaltReason)
  | aborted (e : RunError)
  deriving DecidableEq, Repr

/-- How a run stands. -/
inductive RunState where
  | running
  | suspended (w : Wait)
  /-- The named template is to be fetched. -/
  | including (name : String)
  | finished (o : Outcome)
  deriving DecidableEq, Repr

/-! ### In warnings

Warnings about calls out of turn show the whole state. -/

/-- The name of a wait. -/
def Wait.name : Wait → String
  | line => "Line"
  | key => "Key"
  | required => "Required"
  | enter => "Enter"

/-- The name of a reason. -/
def HaltReason.name : HaltReason → String
  | exit => "Exit"
  | quit => "Quit"
  | hangup => "Hangup"

/-- An error with all it holds. -/
def RunError.describe : RunError → String
  | notCompiled name => "NotCompiled(" ++ Quoted.quote name ++ ")"
  | unresolvedLabel template label =>
    "UnresolvedLabel \x7b template: " ++ Quoted.quote template ++ ", label: " ++
      Quoted.quote label ++ " \x7d"
  | cancelled => "Cancelled"
  | inputClosed => "InputClosed"
  | output text => "Output(" ++ Quoted.quote text ++ ")"

/-- An outcome with all it holds. -/
def Outcome.describe : Outcome → String
  | completed => "Completed"
  | halted r => "Halted(" ++ r.name ++ ")"
  | aborted e => "Aborted(" ++ e.describe ++ ")"

/-- A state with all it holds. -/
def RunState.describe : RunState → String
  | running => "Running"
  | suspended w => "Suspended(" ++ w.name ++ ")"
  | including name => "Including(" ++ Quoted.quote name ++ ")"
  | finished o => "Finished(" ++ o.describe ++ ")"

/-! ### Faults -/

/-- Why one instruction could not be carried out. The run goes on behind it. -/
inductive Fault where
  | invalidArgument (instruction value : String)
  | factUnavailable (f : Fact)
  | includeDepth (limit : Nat)
  | notControl (kind : Kind)
  deriving DecidableEq, Repr

/-- The text of a fault. -/
def Fault.message : Fault → String
  | invalidArgument instruction value => "invalid argument '" ++ value ++ "' for " ++ instruction
  | factUnavailable f => "context field " ++ f.name ++ " unavailable"
  | includeDepth limit => "include depth limit of " ++ toString limit ++ " reached"
  | notControl kind => kind.name ++ " has no control sequence"

end BulletinBoard
