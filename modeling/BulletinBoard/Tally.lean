/-
# Tallies

What the board counts: templates compiled and rejected, runs by how they ended, and instructions it
met and did not act on.

Key definitions: `Tally`.
-/
namespace BulletinBoard

/-- Counts of what happened. -/
structure Tally where
  compiled : Nat
  rejected : Nat
  completed : Nat
  halted : Nat
  aborted : Nat
  unsupported : Nat
  deriving DecidableEq, Repr

namespace Tally

/-- Nothing happened. -/
def zero : Tally := ⟨0, 0, 0, 0, 0, 0⟩

/-- What happened in two stretches together. -/
def add (a b : Tally) : Tally :=
  ⟨a.compiled + b.compiled, a.rejected + b.rejected, a.completed + b.completed,
    a.halted + b.halted, a.aborted + b.aborted, a.unsupported + b.unsupported⟩

instance : Add Tally := ⟨add⟩

instance : EmptyCollection Tally := ⟨zero⟩

theorem add_def (a b : Tally) : a + b = add a b := rfl

@[simp] theorem zero_add (a : Tally) : zero + a = a := by
  simp [add_def, add, zero]

@[simp] theorem add_zero (a : Tally) : a + zero = a := by
  simp [add_def, add, zero]

theorem add_assoc (a b c : Tally) : a + b + c = a + (b + c) := by
  simp [add_def, add, Nat.add_assoc]

theorem add_comm (a b : Tally) : a + b = b + a := by
  simp [add_def, add, Nat.add_comm]

instance : Std.Associative (@HAdd.hAdd Tally Tally Tally _) := ⟨add_assoc⟩

instance : Std.Commutative (@HAdd.hAdd Tally Tally Tally _) := ⟨add_comm⟩

theorem add_right_cancel {a b c : Tally} (h : a + c = b + c) : a = b := by
  cases a
  cases b
  simpa [add_def, add] using h

end Tally

end BulletinBoard
