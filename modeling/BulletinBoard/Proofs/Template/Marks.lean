/-
# The last mark of a label

A template looks labels up in the index that was built when it was compiled, instruction by
instruction, each label in the place of the same label before (`indexLabels`). What is found there
is the last place in the instructions that marks the label (`label?_eq_lastMark?`); so where labels
stand can be read off the instructions, also of templates that are put together from others.

Key definitions: `Template.marks`, `Template.lastMark?`.
Key theorems: `Template.lookup_foldl_indexInstruction`, `Template.label?_eq_lastMark?`,
`Template.lastMark?_eq_none_iff`, `Template.lastMark?_append`.
-/
import BulletinBoard.Template.Basic

namespace BulletinBoard.Template

/-- Whether an instruction marks a label of a name. -/
def marks (name : String) (i : Instruction) : Bool :=
  i.kind == .label && i.word == name

/-- The last position of a label in a list of instructions. -/
def lastMark? (name : String) : List Instruction → Option Nat
  | [] => none
  | i :: rest =>
    match lastMark? name rest with
    | some position => some (position + 1)
    | none => if marks name i then some 0 else none

theorem marks_eq_true_iff {name : String} {i : Instruction} :
    marks name i = true ↔ i.kind = .label ∧ i.word = name := by
  simp [marks]

/-! ### In the index -/

/-- An instruction that is taken up changes what the name stands for that it marks. -/
theorem lookup_indexInstruction (name : String) (index : List (String × Nat)) (i : Instruction)
    (position : Nat) :
    (indexInstruction index (i, position)).lookup name =
      if marks name i then some position else index.lookup name := by
  unfold indexInstruction
  dsimp only
  by_cases hk : i.kind = .label
  · have hmarks : marks name i = true ↔ name = i.word := by
      rw [marks_eq_true_iff, and_iff_right hk, eq_comm]
    rw [if_pos hk, lookup_insertLabel]
    simp only [hmarks]
  · rw [if_neg hk, if_neg (by simp [marks_eq_true_iff, hk])]

/-- **What a name stands for behind some instructions more.** It is their last mark of the name, and
without one what it stood for before. -/
theorem lookup_foldl_indexInstruction (name : String) (is : List Instruction) (n : Nat)
    (index : List (String × Nat)) :
    ((is.zipIdx n).foldl indexInstruction index).lookup name =
      ((lastMark? name is).map (n + ·)).or (index.lookup name) := by
  induction is generalizing n index with
  | nil => rfl
  | cons i rest ih =>
    rw [List.zipIdx_cons, List.foldl_cons, ih, lookup_indexInstruction, lastMark?]
    cases lastMark? name rest with
    | some p => simp [Nat.add_comm p 1, Nat.add_assoc]
    | none => cases marks name i <;> rfl

/-- **A label stands where it is marked last.** -/
theorem label?_eq_lastMark? (t : Template) (name : String) :
    t.label? name = lastMark? name t.instructions := by
  unfold label?
  rw [t.index_eq, indexLabels, lookup_foldl_indexInstruction]
  simp

/-! ### In the instructions -/

theorem lastMark?_lt {name : String} {is : List Instruction} {p : Nat}
    (h : lastMark? name is = some p) : p < is.length := by
  induction is generalizing p with
  | nil => cases h
  | cons i rest ih =>
    unfold lastMark? at h
    rw [List.length_cons]
    split at h
    · rename_i q hq
      have := ih hq
      cases h
      omega
    · split at h <;> cases h
      omega

theorem label?_lt {t : Template} {name : String} {p : Nat} (h : t.label? name = some p) :
    p < t.size :=
  lastMark?_lt (t.label?_eq_lastMark? name ▸ h)

/-- A label is missing just where no instruction marks it. -/
theorem lastMark?_eq_none_iff {name : String} {is : List Instruction} :
    lastMark? name is = none ↔ ∀ i ∈ is, i.kind = .label → i.word ≠ name := by
  induction is with
  | nil => simp [lastMark?]
  | cons i rest ih =>
    rw [List.forall_mem_cons, ← ih, lastMark?]
    cases lastMark? name rest with
    | none => simp [marks]
    | some p => simp

theorem lastMark?_append (name : String) (is js : List Instruction) :
    lastMark? name (is ++ js) =
      match lastMark? name js with
      | some p => some (is.length + p)
      | none => lastMark? name is := by
  induction is with
  | nil => cases h : lastMark? name js <;> simp [h, lastMark?]
  | cons i rest ih =>
    rw [List.cons_append, lastMark?, ih, lastMark?]
    cases h : lastMark? name js with
    | none => rfl
    | some p =>
      dsimp only
      rw [List.length_cons]
      congr 1
      omega

theorem lastMark?_eq_none (name : String) {is : List Instruction}
    (h : ∀ i ∈ is, i.kind ≠ .label) : lastMark? name is = none :=
  lastMark?_eq_none_iff.mpr fun i hi hk => absurd hk (h i hi)

end BulletinBoard.Template
