/-
# A run and its caller, without a store

What a run does if every template is simply there: each step is followed at once by the template it
asks for, if there is one, and a wait by the next line. There are no turns, no store and nobody else
in it, and where the run is over nothing more happens (`tick`).

A run over a store that is consistent with the files makes the same steps, whether it finds the
templates in the store or waits for them to be loaded (`settle_step`, `iterate_tick_proceedAmid`).

Key definitions: `Execution.settle`, `Exchange`, `Exchange.tick`, `Exchange.EndsAs`.
Key theorems: `Execution.settle_step`, `Exchange.EndsAs.unique`,
`Exchange.iterate_tick_proceedAmid`.
-/
import BulletinBoard.Proofs.Run.Amid
import BulletinBoard.Proofs.Template.StoreFiles
import Mathlib.Logic.Function.Iterate

namespace BulletinBoard

open Text Template

/-! ### Templates that are there -/

/-- Gives a run that waits for a template what there is for it. -/
def Execution.settle (find : String → Except RunError Template) (e : Execution) : Execution :=
  match e.state with
  | .including name =>
    match find name with
    | .ok t => (e.enter t).execution
    | .error error => (e.abort error).execution
  | _ => e

namespace Execution

variable {find : String → Except RunError Template} {store : Store} {facts : Facts} {e : Execution}

theorem settle_eq_self (h : ∀ name, e.state ≠ .including name) : e.settle find = e := by
  unfold settle
  split
  · rename_i name hn
    exact absurd hn (h name)
  · rfl

theorem settle_of_running (h : e.state = .running) : e.settle find = e :=
  settle_eq_self fun name hn => by cases h.symm.trans hn

/-- The store has of each name what there is for it, or nothing. -/
def Agrees (find : String → Except RunError Template) (store : Store) : Prop :=
  ∀ name t, store.lookup? name = some t → find name = .ok t

/-- Including goes wrong over every store or over none, and once the template is there the store it
was looked for in does not matter. -/
theorem obey_call_agrees (hs : Agrees find store) (hr : e.state = .running) (name : String) :
    (∃ fault, e.obey store (.call name) = .error fault ∧
      e.obey (.empty none) (.call name) = .error fault) ∨
    ∃ a b, e.obey store (.call name) = .ok a ∧ e.obey (.empty none) (.call name) = .ok b ∧
      a.sent = b.sent ∧ a.execution.settle find = b.execution.settle find := by
  have hn : e.next.state = .running := e.state_next.trans hr
  simp only [obey, includeNamed]
  split
  · exact .inl ⟨_, rfl, rfl⟩
  refine .inr ?_
  cases hl : store.lookup? name with
  | none => exact ⟨_, _, rfl, rfl, rfl, rfl⟩
  | some t =>
    refine ⟨_, _, rfl, rfl, rfl, ?_⟩
    have hleft : settle find { e.next with frames := ⟨t, 0⟩ :: e.next.frames } =
        { e.next with frames := ⟨t, 0⟩ :: e.next.frames } := settle_of_running hn
    have hright : settle find { e.next with state := .including name } =
        { e.next with frames := ⟨t, 0⟩ :: e.next.frames, state := .running } := by
      unfold settle
      dsimp only
      rw [hs name t hl]
      rfl
    show settle find { e.next with frames := ⟨t, 0⟩ :: e.next.frames } =
      settle find { e.next with state := .including name }
    rw [hleft, hright, ← hn]

/-- Where one agrees with the templates there are, it does not matter which store an instruction is
carried out over. -/
theorem attempt_agrees (hs : Agrees find store) (hr : e.state = .running) {f : Frame}
    {below : List Frame} (hf : e.frames = f :: below) (i : Instruction) :
    (e.attempt store facts f i).sent = (e.attempt (.empty none) facts f i).sent ∧
      (e.attempt store facts f i).execution.settle find =
        (e.attempt (.empty none) facts f i).execution.settle find := by
  cases hd : i.deed facts f.template.name e.registers e.response with
  | error fault =>
    rw [attempt_of_error hf (perform_of_fault hd), attempt_of_error hf (perform_of_fault hd)]
    exact ⟨rfl, rfl⟩
  | ok d =>
    cases d with
    | call name =>
      rcases obey_call_agrees hs hr name with ⟨fault, h₁, h₂⟩ | ⟨a, b, h₁, h₂, hsent, hsettle⟩
      · rw [attempt_of_error hf ((perform_of_deed hd).trans h₁),
          attempt_of_error hf ((perform_of_deed hd).trans h₂)]
        exact ⟨rfl, rfl⟩
      · rw [attempt_of_ok hf ((perform_of_deed hd).trans h₁),
          attempt_of_ok hf ((perform_of_deed hd).trans h₂)]
        exact ⟨hsent, hsettle⟩
    | _ =>
      rw [attempt_of_ok hf (perform_of_deed hd), attempt_of_ok hf (perform_of_deed hd)]
      exact ⟨rfl, rfl⟩

/-- A step over a store that agrees with the templates there are sends what it sends over none, and
once the template is there leads where it leads over none. -/
theorem settle_step (hs : Agrees find store) (facts : Facts) (hr : e.state = .running) :
    (e.step store facts).bytes = (e.step (.empty none) facts).bytes ∧
      (e.step store facts).execution.settle find =
        (e.step (.empty none) facts).execution.settle find := by
  have hsame : (e.step store facts).sent = (e.step (.empty none) facts).sent ∧
      (e.step store facts).execution.settle find =
        (e.step (.empty none) facts).execution.settle find := by
    unfold step
    split
    · exact ⟨rfl, rfl⟩
    rename_i hf
    split
    · exact ⟨rfl, rfl⟩
    split
    · exact ⟨rfl, rfl⟩
    · exact attempt_agrees hs hr hf _
  refine ⟨?_, hsame.2⟩
  unfold Advance.bytes
  rw [hsame.1, (e.keeps_step store facts).1, (e.keeps_step (.empty none) facts).1]

end Execution

/-! ### Exchanges -/

/-- A run and the line to its caller. -/
structure Exchange where
  execution : Execution
  line : Line
  /-- How many steps were made. -/
  steps : Nat

namespace Exchange

/-- The line takes some more bytes. -/
def send (x : Exchange) (bytes : List UInt8) : Exchange :=
  { x with line := { x.line with outgoing := x.line.outgoing ++ bytes } }

/-- One step, or one line for a run that waits. -/
def tick (find : String → Except RunError Template) (facts : ChangingFacts) (x : Exchange) :
    Exchange :=
  match x.execution.state with
  | .running =>
    let a := x.execution.step (.empty none) (facts x.steps)
    (⟨a.execution.settle find, x.line, x.steps + 1⟩ : Exchange).send a.bytes
  | .suspended _ =>
    match x.line.hear with
    | (.bytes b, line) => ⟨(x.execution.deliver (Utf8.decodeLossy b)).execution, line, x.steps⟩
    | (.closed, line) | (.broken, line) =>
      ⟨(x.execution.abort .inputClosed).execution, line, x.steps⟩
    | (.silence, line) => ⟨x.execution, line, x.steps⟩
  | _ => x

variable {find : String → Except RunError Template} {facts : ChangingFacts} {x : Exchange}

theorem tick_of_finished {o : Outcome} (h : x.execution.state = .finished o) :
    x.tick find facts = x := by
  unfold tick
  rw [h]

/-- Where two exchanges with one beginning stand still they stand alike. -/
theorem iterate_eq_of_fixed {m n : Nat} {y z : Exchange} (hy : (tick find facts)^[m] x = y)
    (hz : (tick find facts)^[n] x = z) (hy' : y.tick find facts = y) (hz' : z.tick find facts = z) :
    y = z := by
  rcases Nat.le_total m n with h | h
  · obtain ⟨k, rfl⟩ := Nat.exists_eq_add_of_le' h
    rw [Function.iterate_add_apply, hy, Function.iterate_fixed hy'] at hz
    exact hz
  · obtain ⟨k, rfl⟩ := Nat.exists_eq_add_of_le' h
    rw [Function.iterate_add_apply, hz, Function.iterate_fixed hz'] at hy
    exact hy.symm

/-- After some number of ticks the run is over, and the exchange stands like this. -/
def EndsAs (find : String → Except RunError Template) (facts : ChangingFacts) (x y : Exchange) :
    Prop :=
  (∃ k, (tick find facts)^[k] x = y) ∧ ∃ o, y.execution.state = .finished o

/-- An exchange ends in one way at most. -/
theorem EndsAs.unique {y z : Exchange} (hy : x.EndsAs find facts y) (hz : x.EndsAs find facts z) :
    y = z := by
  obtain ⟨⟨m, hm⟩, o, ho⟩ := hy
  obtain ⟨⟨n, hn⟩, p, hp⟩ := hz
  exact iterate_eq_of_fixed hm hn (tick_of_finished ho) (tick_of_finished hp)

/-- The report of a run that has come to this. -/
def report (x : Exchange) : Report :=
  ⟨x.execution.outcome?.getD .completed, x.execution.response⟩

@[simp] theorem execution_send (x : Exchange) (bytes : List UInt8) :
    (x.send bytes).execution = x.execution := rfl

theorem send_eq (x : Exchange) (e : Execution) (steps : Nat) (bytes : List UInt8) :
    (⟨e, (x.send bytes).line, steps⟩ : Exchange) =
      (⟨e, x.line, steps⟩ : Exchange).send bytes := rfl

@[simp] theorem send_nil (x : Exchange) : x.send [] = x := by
  unfold send
  rw [List.append_nil]

@[simp] theorem send_send (x : Exchange) (b c : List UInt8) :
    (x.send b).send c = x.send (b ++ c) := by
  unfold send
  dsimp only
  rw [List.append_assoc]

end Exchange

/-! ### Stretches of steps -/

/-- Whatever others do to a consistent store, it stays consistent. -/
def Others.Keep (disk : Disk) (root : String) (others : Others) : Prop :=
  ∀ gap s, s.Consistent disk root → (others gap s).Consistent disk root

theorem Store.Consistent.agrees {disk : Disk} {root : String} {s : Store}
    (h : s.Consistent disk root) : Execution.Agrees (Store.findFile disk root) s := by
  intro name t ht
  unfold Store.findFile
  rw [h.of_lookup? ht]

section

variable {disk : Disk} {root : String} {facts : ChangingFacts} {others : Others} {s : Store}
  (ho : others.Keep disk root) (hs : s.Consistent disk root)

theorem Execution.charset_proceedAmid (e : Execution) (facts : ChangingFacts) (others : Others)
    (budget made : Nat) (s : Store) :
    (e.proceedAmid facts others budget made s).1.execution.charset = e.charset := by
  induction budget generalizing made e s with
  | zero => rfl
  | succ budget ih =>
    by_cases hr : e.state = .running
    · rw [proceedAmid_succ hr]
      exact (ih _ _ _).trans (e.keeps_step _ _).1
    · rw [proceedAmid_of_ne_running hr]
      rfl

theorem Execution.bytes_proceedAmid_succ {e : Execution} (hr : e.state = .running)
    (facts : ChangingFacts) (others : Others) (budget made : Nat) (s : Store) :
    (e.proceedAmid facts others (budget + 1) made s).1.bytes =
      (e.step (others (.step budget) s) (facts made)).bytes ++
        ((e.step (others (.step budget) s) (facts made)).execution.proceedAmid facts others budget
          (made + 1) (others (.step budget) s)).1.bytes := by
  rw [proceedAmid_succ hr]
  exact Advance.bytes_andThen (charset_proceedAmid _ _ _ _ _ _).symm

include ho hs

theorem Execution.consistent_proceedAmid (e : Execution) (budget made : Nat) :
    (e.proceedAmid facts others budget made s).2.2.Consistent disk root := by
  induction budget generalizing made e s with
  | zero => exact hs
  | succ budget ih =>
    by_cases hr : e.state = .running
    · rw [proceedAmid_succ hr]
      exact ih (ho _ _ hs) _ _
    · rw [proceedAmid_of_ne_running hr]
      exact hs

/-- A stretch of steps amid others is a number of ticks, once the template it ends at is there. -/
theorem Exchange.iterate_tick_proceedAmid (x : Exchange) (hr : x.execution.state = .running)
    (budget : Nat) :
    ∃ k, (0 < budget → 0 < k) ∧ (tick (Store.findFile disk root) facts)^[k] x =
      (⟨(x.execution.proceedAmid facts others budget x.steps s).1.execution.settle
          (Store.findFile disk root), x.line,
          (x.execution.proceedAmid facts others budget x.steps s).2.1⟩ : Exchange).send
        (x.execution.proceedAmid facts others budget x.steps s).1.bytes := by
  induction budget generalizing x s with
  | zero =>
    refine ⟨0, id, ?_⟩
    show x = (⟨x.execution.settle _, x.line, x.steps⟩ : Exchange).send []
    rw [send_nil, Execution.settle_of_running hr]
  | succ budget ih =>
    have hs' : (others (.step budget) s).Consistent disk root := ho _ _ hs
    obtain ⟨hbytes, hsettle⟩ := Execution.settle_step hs'.agrees (facts x.steps) hr
    rw [Execution.bytes_proceedAmid_succ hr, Execution.proceedAmid_succ hr]
    generalize x.execution.step (others (.step budget) s) (facts x.steps) = first at hbytes hsettle
    have htick : x.tick (Store.findFile disk root) facts =
        (⟨first.execution.settle (Store.findFile disk root), x.line, x.steps + 1⟩ : Exchange).send
          first.bytes := by
      unfold tick
      rw [hr]
      dsimp only
      rw [← hbytes, ← hsettle]
    by_cases hf : first.execution.state = .running
    · obtain ⟨k, -, hk⟩ :=
        ih hs' ((⟨first.execution, x.line, x.steps + 1⟩ : Exchange).send first.bytes) hf
      refine ⟨k + 1, fun _ => Nat.succ_pos k, ?_⟩
      rw [Function.iterate_succ_apply, htick, Execution.settle_of_running hf, hk, execution_send,
        send_eq, send_send]
      rfl
    · -- the run waits or is over, and no more steps are made
      refine ⟨1, fun _ => Nat.one_pos, ?_⟩
      dsimp only
      rw [Function.iterate_one, htick, Execution.proceedAmid_of_ne_running hf]
      show _ = Exchange.send _ (first.bytes ++ [])
      rw [List.append_nil]
      rfl

end

end BulletinBoard
