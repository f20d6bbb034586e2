/-
# Instructions

A compiled template is a list of instructions, read off its spans. A word takes the arguments its
kind calls for from the spans that follow it; a comment takes words until the next literal text and
leaves nothing. The reader takes one span at a time and keeps what is still called for.

Key definitions: `Instruction`, `WordError`, `Instruction.Pending`, `Instruction.step`,
`Instruction.ofSpans`.
-/
import BulletinBoard.Template.Span
import BulletinBoard.Template.Vocabulary
import BulletinBoard.Text.Numeral

namespace BulletinBoard.Template

open Text

/-- One thing to do. The word is kept as it was written; of literal text it is the text, and of a
label the name. -/
structure Instruction where
  kind : Kind
  args : List String
  word : String
  deriving DecidableEq, Repr

/-- What a word calls for next. -/
inductive Wanted where
  /-- The argument of a position, counted from 1, out of so many. -/
  | argument (position total : Nat)
  | sequenceLength
  | sequenceText
  | repeatCount
  deriving DecidableEq, Repr

/-- How something wanted is named in messages. -/
def Wanted.describe : Wanted → String
  | argument position total => "argument " ++ toString position ++ " of " ++ toString total
  | sequenceLength => "sequence length"
  | sequenceText => "literal sequence text"
  | repeatCount => "repeat count"

/-- What stands in the place of something wanted. -/
inductive Found where
  | nothing
  | span (s : Span)
  | notNumeral (text : String)
  deriving DecidableEq, Repr

/-- What can be wrong with the words of a template. -/
inductive WordError where
  /-- No instruction has this name. -/
  | unknown (word : String)
  /-- The word calls for something that is not there. -/
  | incomplete (word : String) (wanted : Wanted) (found : Found)
  deriving DecidableEq, Repr

/-- How a missing argument is explained. -/
def WordError.detail (wanted : Wanted) : Found → String
  | .nothing => "expected " ++ wanted.describe ++ ", found end of input"
  | .span s => "expected " ++ wanted.describe ++ ", found " ++ s.describe
  | .notNumeral text => wanted.describe ++ " must be a number, got '" ++ text ++ "'"

/-- The text of an error. -/
def WordError.message : WordError → String
  | unknown word => "unknown token: " ++ word
  | incomplete word wanted found =>
    "instruction '" ++ foldCase word ++ "' requires arguments: " ++ detail wanted found

namespace Instruction

/-- The instruction that sends a literal text. -/
def literal (text : String) : Instruction := ⟨.text, [], text⟩

/-- The instruction that marks the place of a label. -/
def mark (name : String) : Instruction := ⟨.label, [], name⟩

/-- An argument by its position, empty if there is none. -/
def arg (i : Instruction) (position : Nat) : String :=
  i.args.getD position ""

/-- The label a word declares: a slash and a name. -/
def labelName? (word : String) : Option String :=
  match word.toList with
  | '/' :: c :: rest => some (String.ofList (c :: rest))
  | _ => none

/-! ### Reading -/

/-- What the spans read so far still call for. -/
inductive Pending where
  /-- Nothing: the next span begins something new. -/
  | nothing
  /-- A comment passes over words. -/
  | comment
  /-- A word has some of its arguments and `missing + 1` are due. -/
  | arguments (kind : Kind) (word : String) (given : List String) (missing : Nat)
  /-- A repeated sequence is to be given its length. -/
  | sequenceLength (word : String)
  /-- It is to be given its text. -/
  | sequenceText (word length : String)
  /-- It is to be given its count. -/
  | repeatCount (word length text : String)
  deriving DecidableEq, Repr

/-- What one span leads to: the instruction it completes, if it completes one, and what is called
for after it. -/
structure Progress where
  done : Option Instruction
  pending : Pending
  deriving DecidableEq, Repr

/-- The instruction of a word with all its arguments. The word `label` stands for the label its
argument names. -/
def complete (kind : Kind) (word : String) (args : List String) : Instruction :=
  if kind = .declareLabel then mark (args.getLastD "") else ⟨kind, args, word⟩

/-- A word that begins something new. -/
def begin (word : String) : Except WordError Progress :=
  match Kind.ofWord? word with
  | none =>
    match labelName? word with
    | some name => .ok ⟨some (mark name), .nothing⟩
    | none => .error (.unknown word)
  | some kind =>
    match kind.arity with
    | .fixed 0 => .ok ⟨some (complete kind word []), .nothing⟩
    | .fixed (missing + 1) => .ok ⟨none, .arguments kind word [] missing⟩
    | .discard => .ok ⟨none, .comment⟩
    | .sequence => .ok ⟨none, .sequenceLength word⟩

/-- Whether a text counts something. -/
def isCount (text : String) : Bool :=
  (Numeral.read? Numeral.max32 text).isSome

/-- Reads one span. -/
def step : Pending → Span → Except WordError Progress
  | .nothing, .literal text => .ok ⟨some (literal text), .nothing⟩
  | .nothing, .word w => begin w
  | .comment, .literal text => .ok ⟨some (literal text), .nothing⟩
  | .comment, .word _ => .ok ⟨none, .comment⟩
  | .arguments kind word given 0, .word w =>
    .ok ⟨some (complete kind word (given ++ [w])), .nothing⟩
  | .arguments kind word given (missing + 1), .word w =>
    .ok ⟨none, .arguments kind word (given ++ [w]) missing⟩
  | .arguments _ word given missing, s =>
    .error (.incomplete word (.argument (given.length + 1) (given.length + missing + 1)) (.span s))
  | .sequenceLength word, .word w =>
    if isCount w then .ok ⟨none, .sequenceText word w⟩
    else .error (.incomplete word .sequenceLength (.notNumeral w))
  | .sequenceLength word, s => .error (.incomplete word .sequenceLength (.span s))
  | .sequenceText word length, .literal text => .ok ⟨none, .repeatCount word length text⟩
  | .sequenceText word _, s => .error (.incomplete word .sequenceText (.span s))
  | .repeatCount word length text, .word w =>
    if isCount w then .ok ⟨some ⟨.repeatSequence, [length, text, w], word⟩, .nothing⟩
    else .error (.incomplete word .repeatCount (.notNumeral w))
  | .repeatCount word _ _, s => .error (.incomplete word .repeatCount (.span s))

/-- Ends the reading. Nothing but comments may still be open. -/
def finish : Pending → Except WordError Unit
  | .nothing | .comment => .ok ()
  | .arguments _ word given missing =>
    .error (.incomplete word (.argument (given.length + 1) (given.length + missing + 1)) .nothing)
  | .sequenceLength word => .error (.incomplete word .sequenceLength .nothing)
  | .sequenceText word _ => .error (.incomplete word .sequenceText .nothing)
  | .repeatCount word _ _ => .error (.incomplete word .repeatCount .nothing)

/-- Reads spans, with something called for. -/
def read (pending : Pending) : List Span → Except WordError (List Instruction)
  | [] => (fun _ => []) <$> finish pending
  | s :: rest =>
    match step pending s with
    | .error e => .error e
    | .ok progress => (progress.done.toList ++ ·) <$> read progress.pending rest

/-- The instructions of a span list. -/
def ofSpans (spans : List Span) : Except WordError (List Instruction) :=
  read .nothing spans

end Instruction

end BulletinBoard.Template
