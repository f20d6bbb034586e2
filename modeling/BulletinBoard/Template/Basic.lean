/-
# Templates

A template is compiled from its source: the brackets are read, then the words, and the labels are
indexed as they come, so a name declared twice stands for its last place.

Key definitions: `Template.indexLabels`, `Template`, `CompileError`, `Template.compile`,
`Template.label?`, `Template.labels`.
-/
import BulletinBoard.Template.Instruction

namespace BulletinBoard

open Template (BracketError WordError Instruction Span)

/-! ### Indexing labels -/

/-- What a name stands for in a list of entries, by its first entry. -/
theorem lookup_entry {α : Type} (n name : String) (a : α) (rest : List (String × α)) :
    List.lookup name ((n, a) :: rest) = if name = n then some a else rest.lookup name := by
  rw [List.lookup_cons]
  by_cases h : name = n
  · rw [if_pos h, beq_iff_eq.mpr h]
  · rw [if_neg h, beq_eq_false_iff_ne.mpr h]

namespace Template

/-- Puts a name at a position, in the place of the position it had. -/
def insertLabel (name : String) (position : Nat) : List (String × Nat) → List (String × Nat)
  | [] => [(name, position)]
  | (n, p) :: rest =>
    if n = name then (name, position) :: rest else (n, p) :: insertLabel name position rest

/-- Putting a name at a position changes what that name stands for, and nothing else. -/
theorem lookup_insertLabel (name other : String) (position : Nat) (index : List (String × Nat)) :
    (insertLabel name position index).lookup other =
      if other = name then some position else index.lookup other := by
  induction index with
  | nil => exact lookup_entry name other position []
  | cons entry rest ih =>
    obtain ⟨n, p⟩ := entry
    unfold insertLabel
    split
    · rename_i hn
      subst hn
      rw [lookup_entry, lookup_entry]
      by_cases h : other = n <;> simp [h]
    · rename_i hn
      rw [lookup_entry, lookup_entry, ih]
      by_cases ho : other = n
      · subst ho
        simp [hn]
      · simp [ho]

/-- Takes up one instruction with its position. -/
def indexInstruction (index : List (String × Nat)) (numbered : Instruction × Nat) :
    List (String × Nat) :=
  if numbered.1.kind = .label then insertLabel numbered.1.word numbered.2 index else index

/-- The labels among instructions, by name. -/
def indexLabels (is : List Instruction) : List (String × Nat) :=
  is.zipIdx.foldl indexInstruction []

end Template

/-! ### Templates -/

/-- A compiled template. -/
structure Template where
  name : String
  source : String
  instructions : List Instruction
  /-- The position of each label. -/
  index : List (String × Nat)
  index_eq : index = Template.indexLabels instructions
  deriving DecidableEq, Repr

/-- Why a file could not be read as text. -/
inductive ReadError where
  /-- Nothing is there. -/
  | missing
  /-- A folder is there. -/
  | isFolder
  /-- A file stands where the path goes on. -/
  | notFolder
  /-- A part of the path is longer than names may be. -/
  | nameTooLong
  /-- The path holds the character that ends paths. -/
  | endsEarly
  /-- The content is not UTF-8. -/
  | notText
  /-- No folder of templates was named. -/
  | noRoot
  deriving DecidableEq, Repr

/-- The text of an error. -/
def ReadError.message : ReadError → String
  | missing => "No such file or directory (os error 2)"
  | isFolder => "Is a directory (os error 21)"
  | notFolder => "Not a directory (os error 20)"
  | nameTooLong => "File name too long (os error 36)"
  | endsEarly => "file name contained an unexpected NUL byte"
  | notText => "stream did not contain valid UTF-8"
  | noRoot => "no template root configured"

/-- Why a template could not be compiled. -/
inductive CompileError where
  | brackets (e : BracketError)
  | words (e : WordError)
  | unreadable (name : String) (e : ReadError)
  deriving DecidableEq, Repr

/-- The text of an error. -/
def CompileError.message : CompileError → String
  | brackets e => "lex error: " ++ e.message
  | words e => "tokenize error: " ++ e.message
  | unreadable name e => "io error reading template " ++ name ++ ": " ++ e.message

namespace Template

/-- The template of instructions. -/
def of (name source : String) (instructions : List Instruction) : Template :=
  ⟨name, source, instructions, indexLabels instructions, rfl⟩

@[simp] theorem instructions_of (name source : String) (is : List Instruction) :
    (of name source is).instructions = is := rfl

/-- Reads a source under a name. -/
def compile (name source : String) : Except CompileError Template :=
  match Span.ofSource source with
  | .error e => .error (.brackets e)
  | .ok spans =>
    match Instruction.ofSpans spans with
    | .error e => .error (.words e)
    | .ok instructions => .ok (of name source instructions)

/-- A compiled template has the name and the source it was compiled from. -/
theorem name_source_of_compile {name source : String} {t : Template}
    (h : compile name source = .ok t) : t.name = name ∧ t.source = source := by
  unfold compile at h
  split at h
  · cases h
  · split at h
    · cases h
    · cases h
      exact ⟨rfl, rfl⟩

/-- How many instructions a template has. -/
def size (t : Template) : Nat := t.instructions.length

/-- The instruction at a position. -/
def at? (t : Template) (position : Nat) : Option Instruction := t.instructions[position]?

/-! ### Labels -/

/-- Where a label stands. -/
def label? (t : Template) (name : String) : Option Nat :=
  t.index.lookup name

/-- Every label with its position, by position. -/
def labels (t : Template) : List (String × Nat) :=
  t.index.mergeSort fun a b => a.2 ≤ b.2

end Template

end BulletinBoard
