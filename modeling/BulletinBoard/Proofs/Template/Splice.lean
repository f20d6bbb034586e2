/-
# A template in the place of its includes

The instructions of a snippet take the place of every instruction of a template that includes one.
What the template says otherwise stands where it stood, shifted by what came in before it
(`Template.shifted`), and so do its labels, as long as the snippet brings none.

Key definitions: `Template.splice`, `Template.inlined`, `Template.shifted`.
Key theorems: `Template.at?_inlined_of_ne`, `Template.at?_inlined_of_includes`,
`Template.label?_inlined`.
-/
import BulletinBoard.Proofs.Run.Stepping

namespace BulletinBoard.Template

/-- What takes the place of an instruction: the instructions of the snippet, if it includes a
template. -/
def splice (snippet : Template) (i : Instruction) : List Instruction :=
  if i.kind = .includes then snippet.instructions else [i]

/-- The template with the instructions of the snippet in the place of every include. -/
def inlined (t snippet : Template) (source : String) : Template :=
  .of t.name source (t.instructions.flatMap snippet.splice)

/-- Where the instruction at a position stands when the snippet has taken its places. -/
def shifted (t snippet : Template) (position : Nat) : Nat :=
  ((t.instructions.take position).flatMap snippet.splice).length

variable {t snippet : Template} {source : String} {p : Nat} {i : Instruction}

theorem splice_of_ne (hk : i.kind ≠ .includes) : snippet.splice i = [i] := if_neg hk

theorem splice_of_includes (hk : i.kind = .includes) :
    snippet.splice i = snippet.instructions := if_pos hk

/-! ### Positions -/

/-- From the place of a position on stands what takes the place of the instructions from there. -/
theorem at?_inlined (t snippet : Template) (source : String) (p k : Nat) :
    (t.inlined snippet source).at? (t.shifted snippet p + k) =
      ((t.instructions.drop p).flatMap snippet.splice)[k]? := by
  have hsplit : t.instructions.flatMap snippet.splice =
      (t.instructions.take p).flatMap snippet.splice ++
        (t.instructions.drop p).flatMap snippet.splice := by
    rw [← List.flatMap_append, List.take_append_drop]
  show (t.instructions.flatMap snippet.splice)[_]? = _
  rw [hsplit, shifted, List.getElem?_append_right (Nat.le_add_right _ _), Nat.add_sub_cancel_left]

section

variable (hi : t.at? p = some i)
include hi

theorem drop_of_at? : t.instructions.drop p = i :: t.instructions.drop (p + 1) := by
  obtain ⟨hlt, rfl⟩ := List.getElem?_eq_some_iff.mp hi
  exact List.drop_eq_getElem_cons hlt

theorem shifted_succ :
    t.shifted snippet (p + 1) = t.shifted snippet p + (snippet.splice i).length := by
  obtain ⟨hlt, rfl⟩ := List.getElem?_eq_some_iff.mp hi
  rw [shifted, shifted, ← List.take_append_getElem hlt, List.flatMap_append, List.length_append,
    List.flatMap_singleton]

/-- An instruction that includes nothing stands where it stood, shifted. -/
theorem at?_inlined_of_ne (hk : i.kind ≠ .includes) :
    (t.inlined snippet source).at? (t.shifted snippet p) = some i := by
  have hat := t.at?_inlined snippet source p 0
  rw [Nat.add_zero, drop_of_at? hi, List.flatMap_cons, splice_of_ne hk] at hat
  exact hat

/-- In the place of an include stand the instructions of the snippet. -/
theorem at?_inlined_of_includes (hk : i.kind = .includes) {k : Nat} (h : k < snippet.size) :
    (t.inlined snippet source).at? (t.shifted snippet p + k) = snippet.at? k := by
  rw [at?_inlined, drop_of_at? hi, List.flatMap_cons, splice_of_includes hk,
    List.getElem?_append_left h]
  rfl

end

theorem at?_inlined_of_none (hi : t.at? p = none) :
    (t.inlined snippet source).at? (t.shifted snippet p) = none := by
  have hat := t.at?_inlined snippet source p 0
  rw [Nat.add_zero, List.drop_eq_nil_of_le (List.getElem?_eq_none_iff.mp hi)] at hat
  exact hat

/-! ### Labels -/

theorem lastMark?_splice (name : String) (hs : ∀ j ∈ snippet.instructions, j.kind ≠ .label)
    (i : Instruction) :
    lastMark? name (snippet.splice i) = if marks name i then some 0 else none := by
  by_cases hk : i.kind = .includes
  · rw [splice_of_includes hk, lastMark?_eq_none name hs]
    simp [marks, hk]
  · rw [splice_of_ne hk]
    rfl

theorem lastMark?_flatMap_splice (name : String)
    (hs : ∀ j ∈ snippet.instructions, j.kind ≠ .label) (is : List Instruction) :
    lastMark? name (is.flatMap snippet.splice) =
      (lastMark? name is).map fun p => ((is.take p).flatMap snippet.splice).length := by
  induction is with
  | nil => rfl
  | cons i rest ih =>
    rw [List.flatMap_cons, lastMark?_append, ih, lastMark?, lastMark?_splice name hs]
    cases lastMark? name rest with
    | some p => simp
    | none => cases marks name i <;> rfl

/-- Labels stand where they stood, shifted. -/
theorem label?_inlined (hs : ∀ j ∈ snippet.instructions, j.kind ≠ .label) (name : String) :
    (t.inlined snippet source).label? name = (t.label? name).map (t.shifted snippet) := by
  rw [label?_eq_lastMark?, label?_eq_lastMark?]
  exact lastMark?_flatMap_splice name hs t.instructions

end BulletinBoard.Template
