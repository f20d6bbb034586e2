/-
# Instruction kinds

What an instruction does. Kinds that differ only in a color, a fact, a control or the like are one
constructor over that thing. The words that the language knows and this board does not act on are
one constructor too.

Key definitions: `Kind`, `Kind.arity`, `Wait`, `HaltReason`, `FactGate.test`.
-/
import BulletinBoard.Fact
import BulletinBoard.Terminal.Color
import BulletinBoard.Terminal.Control

namespace BulletinBoard

/-- What a suspended run waits for. -/
inductive Wait where
  /-- A whole line. -/
  | line
  /-- The first key of a line. -/
  | key
  /-- A line that is not blank. -/
  | required
  /-- Any line, which is dropped. -/
  | enter
  deriving DecidableEq, Repr

/-- Why a run was halted. -/
inductive HaltReason where
  /-- The outermost template was left. -/
  | exit
  /-- The template ended the screen. -/
  | quit
  /-- The template ended the call. -/
  | hangup
  deriving DecidableEq, Repr

namespace Template

/-- The words for a gate that asks for a privilege level. -/
inductive PrivilegeGate where
  | acs
  | access
  | acsFile
  | accessFile
  deriving DecidableEq, Repr

/-- The gates that ask for a fact. -/
inductive FactGate where
  | color
  | noColor
  | expert
  | regular
  | novice
  | isLocal
  | isRemote
  deriving DecidableEq, Repr

/-- What a fact gate looks at: the gate opens when the fact has the value, or, if `negated`, when it
has another. -/
structure FactTest where
  fact : Fact
  value : String
  negated : Bool
  deriving DecidableEq, Repr

/-- The test of a fact gate. -/
def FactGate.test : FactGate → FactTest
  | color => ⟨.graphics, "ansi", false⟩
  | noColor => ⟨.graphics, "ansi", true⟩
  | expert => ⟨.helpLevel, "expert", false⟩
  | regular => ⟨.helpLevel, "regular", false⟩
  | novice => ⟨.helpLevel, "novice", false⟩
  | isLocal => ⟨.locality, "local", false⟩
  | isRemote => ⟨.locality, "remote", false⟩

/-- The instructions that wait for the caller. -/
inductive Prompt where
  | readLine
  | menu
  | choice
  | answerRequired
  | enter
  deriving DecidableEq, Repr

/-- What a prompt waits for. -/
def Prompt.wait : Prompt → Wait
  | readLine => .line
  | menu => .key
  | choice => .key
  | answerRequired => .required
  | enter => .enter

/-- What an instruction does. -/
inductive Kind where
  /-- Sends literal text. -/
  | text
  /-- Marks a position. -/
  | label
  /-- Selects a color. -/
  | color (c : Color)
  /-- Selects the color its argument names. -/
  | foreground
  /-- Sends a control sequence. -/
  | control (c : Control)
  /-- Places the cursor. -/
  | locate
  /-- Remembers the current color. -/
  | saveColor
  /-- Selects the remembered color. -/
  | loadColor
  /-- Sends a fact. -/
  | fact (f : Fact)
  /-- Sends the short name of the caller's privilege class. -/
  | classAbbreviation
  /-- Sends the name of the caller's privilege class. -/
  | className
  /-- Sends the caller's last answer. -/
  | response
  /-- Goes on at a label. -/
  | goto
  /-- Goes on at a label. -/
  | jump
  /-- Goes on at the first instruction. -/
  | top
  /-- Declares the label its argument names. -/
  | declareLabel
  /-- Sends the beginning of a text several times. -/
  | repeatSequence
  /-- Says nothing to anybody. -/
  | comment
  /-- Hides the rest of the line from callers below a privilege level. -/
  | privilegeGate (g : PrivilegeGate)
  /-- Hides the rest of the line unless a fact is as wanted. -/
  | factGate (g : FactGate)
  /-- Waits for the caller. -/
  | prompt (p : Prompt)
  /-- Runs another template and comes back. -/
  | includes
  /-- Leaves the template or ends the run. -/
  | halt (r : HaltReason)
  /-- A word of the language that the board does not act on. -/
  | unsupported (word : String)
  deriving DecidableEq, Repr

/-- What an instruction takes from the spans after its word. -/
inductive Arity where
  /-- So many words. -/
  | fixed (count : Nat)
  /-- Every word up to the next literal text, for nothing. -/
  | discard
  /-- A numeral, a literal text and a numeral. -/
  | sequence
  deriving DecidableEq, Repr

namespace Kind

/-- The unsupported words that take arguments, with how many. -/
def unsupportedArities : List (String × Nat) :=
  [("setpriv", 1), ("msg_attr", 1), ("copy", 1), ("menu_cmd", 1), ("textsize", 2)]

/-- What an instruction of a kind takes. -/
def arity : Kind → Arity
  | foreground | goto | jump | declareLabel | includes | privilegeGate _ => .fixed 1
  | locate => .fixed 2
  | comment => .discard
  | repeatSequence => .sequence
  | unsupported word => .fixed ((unsupportedArities.lookup word).getD 0)
  | _ => .fixed 0

end Kind

end Template

end BulletinBoard
