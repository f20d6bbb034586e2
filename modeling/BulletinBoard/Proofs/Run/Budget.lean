/-
# Budgets

How many steps a run may make before it yields does not show. Everything a step depends on is in the
run, so a stretch of steps is any of its parts and then the others (`Execution.advance_add`), and so
many calls are one stretch of as many steps as they may make together
(`Execution.advances_eq_advance`). Where one budget brings the run to a stop every other does, at
the same place and having sent the same; where one never does none does.

Key definitions: `Execution.advances`, `Execution.StopsAfter`.
Key theorems: `Execution.advance_add`, `Execution.advances_eq_advance`,
`Execution.stopsAlike_or_yieldsAlike`.
-/
import BulletinBoard.Proofs.Run.Stepping
import Mathlib.Data.Nat.Find

namespace BulletinBoard

open Text Template

namespace Execution

variable {store : Store} {facts : Facts} {e : Execution}

/-! ### Stretches of steps -/

/-- So many steps and some more are the more steps after so many. -/
theorem advance_add (m n : Nat) (e : Execution) :
    e.advance store facts (m + n) =
      (e.advance store facts m).andThen
        ((e.advance store facts m).execution.advance store facts n) := by
  induction m generalizing e with
  | zero =>
    rw [Nat.zero_add]
    exact (Advance.quiet_andThen e).symm
  | succ m ih =>
    by_cases h : e.state = .running
    · have hfirst : ∀ k, e.advance store facts (k + 1) = (e.step store facts).andThen
          ((e.step store facts).execution.advance store facts k) := advance_succ h
      rw [show m + 1 + n = m + n + 1 by omega, hfirst, hfirst, ih, Advance.andThen_assoc]
      rfl
    · rw [advance_of_ne_running h, advance_of_ne_running h]
      dsimp only [Advance.quiet]
      rw [advance_of_ne_running h]
      exact (Advance.quiet_andThen e).symm

/-- More steps send more, behind what fewer steps send. -/
theorem bytes_prefix_of_le {m n : Nat} (h : m ≤ n) :
    (e.advance store facts m).bytes <+: (e.advance store facts n).bytes := by
  obtain ⟨k, rfl⟩ := Nat.exists_eq_add_of_le h
  rw [advance_add, Advance.bytes_andThen]
  · exact List.prefix_append _ _
  · exact ((e.advance store facts m).execution.keeps_advance store facts k).1.symm

/-- A run that has stopped stays where it is, however many steps it might still make. -/
theorem advance_of_stopped {m n : Nat} (h : m ≤ n)
    (hs : (e.advance store facts m).execution.state ≠ .running) :
    e.advance store facts n = e.advance store facts m := by
  obtain ⟨k, rfl⟩ := Nat.exists_eq_add_of_le h
  rw [advance_add, advance_of_ne_running hs]
  simp [Advance.andThen, Advance.quiet]

theorem advance_eq_of_stopped {m n : Nat}
    (hm : (e.advance store facts m).execution.state ≠ .running)
    (hn : (e.advance store facts n).execution.state ≠ .running) :
    e.advance store facts m = e.advance store facts n := by
  rcases Nat.le_total m n with h | h
  · exact (advance_of_stopped h hm).symm
  · exact advance_of_stopped h hn

/-! ### Calls -/

/-- Advances a run so many times, by at most `budget` steps each time. -/
def advances (store : Store) (facts : Facts) (budget : Nat) : Nat → Execution → Advance
  | 0, e => .quiet e
  | calls + 1, e =>
    (e.advance store facts budget).andThen
      (advances store facts budget calls (e.advance store facts budget).execution)

/-- Where calls end does not show. -/
theorem advances_eq_advance (budget calls : Nat) (e : Execution) :
    e.advances store facts budget calls = e.advance store facts (calls * budget) := by
  induction calls generalizing e with
  | zero =>
    rw [Nat.zero_mul]
    rfl
  | succ calls ih => rw [advances, ih, Nat.succ_mul, Nat.add_comm, advance_add]

/-- After so many calls the run has stopped for the first time, and this is what they led to. -/
structure StopsAfter (store : Store) (facts : Facts) (budget calls : Nat) (e : Execution)
    (a : Advance) : Prop where
  /-- After every call before, it had yielded. -/
  yields : ∀ k < calls, (e.advances store facts budget k).execution.state = .running
  reached : e.advances store facts budget calls = a
  stops : a.execution.state ≠ .running

/-- A run that stops after some number of steps stops after some number of calls. -/
theorem exists_stopsAfter {n budget : Nat} (hb : 0 < budget)
    (h : (e.advance store facts n).execution.state ≠ .running) :
    ∃ calls, e.StopsAfter store facts budget calls (e.advance store facts n) := by
  have hcalls : ∃ calls, (e.advances store facts budget calls).execution.state ≠ .running := by
    refine ⟨n, ?_⟩
    rw [advances_eq_advance, advance_of_stopped (Nat.le_mul_of_pos_right n hb) h]
    exact h
  classical
  refine ⟨Nat.find hcalls, fun k hk => ?_, ?_, h⟩
  · exact not_not.mp (Nat.find_min hcalls hk)
  · have hstop := Nat.find_spec hcalls
    rw [advances_eq_advance] at hstop ⊢
    exact advance_eq_of_stopped hstop h

/-- **Budgets do not show.** A run that is advanced as long as it yields comes to the same stop
under any two budgets, standing in the same way and having sent and told the same, or it yields for
ever under both, and then what it has sent after some calls under the one is the beginning of what
it has sent after some calls under the other, or the other way round. -/
theorem stopsAlike_or_yieldsAlike {budget₁ budget₂ : Nat} (h₁ : 0 < budget₁) (h₂ : 0 < budget₂)
    (hr : e.state = .running) :
    (∃ calls₁ calls₂ a, 0 < calls₁ ∧ e.StopsAfter store facts budget₁ calls₁ a ∧
      0 < calls₂ ∧ e.StopsAfter store facts budget₂ calls₂ a) ∨
    (∀ calls, (e.advances store facts budget₁ calls).execution.state = .running) ∧
    (∀ calls, (e.advances store facts budget₂ calls).execution.state = .running) ∧
    ∀ calls₁ calls₂,
      (e.advances store facts budget₁ calls₁).bytes <+:
        (e.advances store facts budget₂ calls₂).bytes ∨
      (e.advances store facts budget₂ calls₂).bytes <+:
        (e.advances store facts budget₁ calls₁).bytes := by
  have hpos : ∀ {budget calls a}, e.StopsAfter store facts budget calls a → 0 < calls := by
    intro budget calls a h
    refine Nat.pos_of_ne_zero fun hz => h.stops ?_
    rw [← h.reached, hz]
    exact hr
  by_cases h : ∃ n, (e.advance store facts n).execution.state ≠ .running
  · obtain ⟨n, hn⟩ := h
    obtain ⟨calls₁, hs₁⟩ := exists_stopsAfter h₁ hn
    obtain ⟨calls₂, hs₂⟩ := exists_stopsAfter h₂ hn
    exact .inl ⟨calls₁, calls₂, _, hpos hs₁, hs₁, hpos hs₂, hs₂⟩
  · have hall : ∀ n, (e.advance store facts n).execution.state = .running :=
      fun n => not_not.mp (not_exists.mp h n)
    simp only [advances_eq_advance]
    refine .inr ⟨fun calls => hall _, fun calls => hall _, fun calls₁ calls₂ => ?_⟩
    exact (Nat.le_total _ _).imp bytes_prefix_of_le bytes_prefix_of_le

/-! ### A line that is hidden in between -/

/-- A template that hides the rest of a line, goes on behind it and waits. -/
def hidingRest : Template :=
  .of "t" "[expert]secret [response]\nshown[readln]"
    [⟨.factGate .expert, [], "expert"⟩, .literal "secret ", ⟨.response, [], "response"⟩,
      .literal "\nshown", ⟨.prompt .readLine, [], "readln"⟩]

/-- A call of two steps ends on the hidden line, and the run stops as it does in a single call. -/
theorem stopsAlike_hidingRest :
    (Execution.start hidingRest .utf8).state = .running ∧
    ((Execution.start hidingRest .utf8).advances (.empty none) Facts.empty 2 1).execution.hidden =
      true ∧
    ∃ calls₁ calls₂ a, 0 < calls₁ ∧
      (Execution.start hidingRest .utf8).StopsAfter (.empty none) Facts.empty 2 calls₁ a ∧
      0 < calls₂ ∧
      (Execution.start hidingRest .utf8).StopsAfter (.empty none) Facts.empty stepBudget calls₂
        a := by
  have hr : (Execution.start hidingRest .utf8).state = .running := rfl
  refine ⟨hr, by decide, ?_⟩
  rcases stopsAlike_or_yieldsAlike (by decide : 0 < 2) (by decide : 0 < stepBudget) hr with h | h
  · exact h
  have hstop : ((Execution.start hidingRest .utf8).advances (.empty none) Facts.empty 2
      3).execution.state = .suspended .line := by decide
  cases hstop.symm.trans (h.1 3)

end Execution

end BulletinBoard
