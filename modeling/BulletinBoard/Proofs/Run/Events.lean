/-
# Runs, event by event

What can happen to a run: it makes a step, or it is given a line or a template or is aborted, in
turn or out of turn. The store and the facts are not the run's own. Others may change them before
any step, so every step has circumstances of its own; a stretch of steps is so many steps in the
same (`Execution.makes_replicate`).

Whatever is done with a run on a stage is some list of events (`Stage.exists_events`), so what is
true along all events is true of every run, between any two of its steps.

Key definitions: `Circumstances`, `Execution.Event`, `Execution.meet`, `Execution.meets`,
`Execution.makes`.
Key theorems: `Execution.meets_append`, `Execution.makes_replicate`, `Stage.exists_events`.
-/
import BulletinBoard.Proofs.Run.Budget
import BulletinBoard.Proofs.Run.Sound

namespace BulletinBoard

open Text Template

/-- What a step depends on beside the run. -/
structure Circumstances where
  store : Store
  facts : Facts

namespace Execution

/-- What can happen to a run. -/
inductive Event where
  /-- It makes a step, if it is running. -/
  | step (around : Circumstances)
  | deliver (line : String)
  | enter (t : Template)
  | abort (error : RunError)

/-- What an event leads to. -/
def meet (e : Execution) : Event → Advance
  | .step around => e.advance around.store around.facts 1
  | .deliver line => e.deliver line
  | .enter t => e.enter t
  | .abort error => e.abort error

/-- What events lead to, one after the other. -/
def meets : List Event → Execution → Advance
  | [], e => .quiet e
  | x :: rest, e => (e.meet x).andThen (meets rest (e.meet x).execution)

/-- What steps lead to, each in its own circumstances. -/
def makes (around : List Circumstances) (e : Execution) : Advance :=
  e.meets (around.map .step)

variable {e : Execution}

theorem meets_append (events more : List Event) (e : Execution) :
    e.meets (events ++ more) =
      (e.meets events).andThen ((e.meets events).execution.meets more) := by
  induction events generalizing e with
  | nil => exact (Advance.quiet_andThen e).symm
  | cons x rest ih =>
    rw [List.cons_append, meets, meets, ih, Advance.andThen_assoc]
    rfl

@[simp] theorem makes_nil (e : Execution) : e.makes [] = .quiet e := rfl

theorem makes_append (around more : List Circumstances) (e : Execution) :
    e.makes (around ++ more) =
      (e.makes around).andThen ((e.makes around).execution.makes more) := by
  unfold makes
  rw [List.map_append, meets_append]

theorem meet_step (h : e.state = .running) (around : Circumstances) :
    e.meet (.step around) = e.step around.store around.facts :=
  advance_one h

theorem makes_cons (h : e.state = .running) (first : Circumstances) (rest : List Circumstances) :
    e.makes (first :: rest) =
      (e.step first.store first.facts).andThen
        ((e.step first.store first.facts).execution.makes rest) := by
  show (e.meet (.step first)).andThen _ = _
  rw [meet_step h]
  rfl

theorem makes_singleton (h : e.state = .running) (around : Circumstances) :
    e.makes [around] = e.step around.store around.facts := by
  rw [makes_cons h, makes_nil]
  show (⟨_, _ ++ [], _ ++ Log.empty⟩ : Advance) = _
  rw [List.append_nil, Log.append_empty]
  rfl

/-- A stretch of steps is so many steps in the same circumstances. -/
theorem makes_replicate (store : Store) (facts : Facts) (budget : Nat) (e : Execution) :
    e.makes (List.replicate budget ⟨store, facts⟩) = e.advance store facts budget := by
  induction budget generalizing e with
  | zero => rfl
  | succ budget ih =>
    rw [List.replicate_succ, Nat.add_comm, advance_add, ← ih]
    rfl

end Execution

namespace Stage

/-- **What is done with a run is a list of events.** Calls that advance it are steps in the
circumstances of that moment, and what happens to the store and the facts does not touch it. -/
theorem exists_events (s : Stage) (operations : List Operation) :
    ∃ events, (operations.foldl operate s).execution = (s.execution.meets events).execution := by
  induction operations generalizing s with
  | nil => exact ⟨[], rfl⟩
  | cons o rest ih =>
    obtain ⟨later, hlater⟩ := ih (s.operate o)
    have hfirst : ∃ events, (s.operate o).execution = (s.execution.meets events).execution := by
      cases o with
      | advance =>
        refine ⟨(List.replicate stepBudget ⟨s.store, s.facts⟩).map .step, ?_⟩
        show (s.execution.advance s.store s.facts stepBudget).execution = _
        rw [← Execution.makes_replicate]
        rfl
      | deliver line => exact ⟨[.deliver line], rfl⟩
      | enter t => exact ⟨[.enter t], rfl⟩
      | abort error => exact ⟨[.abort error], rfl⟩
      | compile name source => exact ⟨[], rfl⟩
      | inform facts => exact ⟨[], rfl⟩
    obtain ⟨first, hfirst⟩ := hfirst
    refine ⟨first ++ later, ?_⟩
    rw [List.foldl_cons, hlater, hfirst, Execution.meets_append]
    rfl

end Stage

end BulletinBoard
