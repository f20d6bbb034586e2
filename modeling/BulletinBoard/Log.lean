/-
# Warnings and the log

What a board tells its operator, beside what it counts. The level a gate asks for is shown in its
log form; names and the values of faults are shown as they are.

Key definitions: `Warning`, `Warning.message`, `Log`.
-/
import BulletinBoard.Run.Outcome
import BulletinBoard.Tally
import BulletinBoard.Template.Basic
import BulletinBoard.Text.LogForm

namespace BulletinBoard

open Text Template

/-- Something the operator should know. -/
inductive Warning where
  /-- An instruction could not be carried out. -/
  | fault (template : String) (kind : Kind) (position : Nat) (f : Fault)
  /-- The board does not act on an instruction. -/
  | unsupported (template : String) (kind : Kind)
  /-- A privilege gate asks for no level. -/
  | invalidGate (kind : Kind) (level : String)
  /-- A run was aborted. -/
  | aborted (e : RunError)
  /-- A run could not begin. -/
  | cannotRun (name : String) (e : RunError)
  /-- A template was asked for and could not be loaded. -/
  | notLoaded (name : String) (e : CompileError)
  /-- A template was passed over while all were loaded. -/
  | skipped (path : String) (e : CompileError)
  /-- A line came while the run was in another state than waiting. -/
  | unexpectedLine (state : RunState)
  /-- A template came while the run was in another state than including. -/
  | unexpectedTemplate (name : String) (state : RunState)
  deriving DecidableEq, Repr

/-- The text of a warning. -/
def Warning.message : Warning → String
  | fault template kind position f =>
    "template " ++ template ++ " instruction " ++ kind.name ++ " at " ++ toString position ++
      ": " ++ f.message
  | unsupported template kind =>
    "template " ++ template ++ ": instruction " ++ kind.name ++ " unimplemented"
  | invalidGate kind level =>
    kind.name ++ " gate has invalid level '" ++ LogForm.escape level ++ "', hiding line"
  | aborted e => "template run aborted: " ++ e.message
  | cannotRun name e => "cannot run " ++ name ++ ": " ++ e.message
  | notLoaded name e => "template " ++ name ++ " could not be loaded: " ++ e.message
  | skipped path e => "skipping template " ++ path ++ ": " ++ e.message
  | unexpectedLine state =>
    "input delivered to an execution that is not waiting: " ++ state.describe
  | unexpectedTemplate name state =>
    "template " ++ name ++ " entered outside an include: " ++ state.describe

/-- Warnings in order, and counts. -/
structure Log where
  warnings : List Warning
  tally : Tally
  deriving DecidableEq, Repr

namespace Log

/-- Nothing to tell. -/
def empty : Log := ⟨[], .zero⟩

/-- One log after another. -/
def append (a b : Log) : Log := ⟨a.warnings ++ b.warnings, a.tally + b.tally⟩

instance : Append Log := ⟨append⟩

/-- One warning. -/
def warn (w : Warning) : Log := ⟨[w], .zero⟩

/-- Counts alone. -/
def count (t : Tally) : Log := ⟨[], t⟩

theorem append_def (a b : Log) : a ++ b = append a b := rfl

@[simp] theorem empty_append (a : Log) : empty ++ a = a := by
  simp [append_def, append, empty]

@[simp] theorem append_empty (a : Log) : a ++ empty = a := by
  simp [append_def, append, empty]

theorem append_assoc (a b c : Log) : a ++ b ++ c = a ++ (b ++ c) := by
  simp [append_def, append, Tally.add_assoc]

end Log

end BulletinBoard
