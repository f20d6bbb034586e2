/-
# What a run counts

A step counts two things: the instruction it carries out, if the board does not act on it, and the
end of the run, if it leads there (`Execution.tally_step`). Nothing is counted on a hidden line, for
an instruction that could not be carried out, or when a line or a template is handed over.

Key definitions: `Instruction.tally`, `RunState.tally`, `Execution.due`, `Stage.counts`.
Key theorems: `Instruction.tally_deed`, `Execution.tally_step`.
-/
import BulletinBoard.Proofs.Run.Charsets
import BulletinBoard.Proofs.Template.LastDraft

namespace BulletinBoard

open Text Template

/-! ### Instructions -/

/-- What a deed counts. -/
def Deed.tally : Deed → Tally
  | .send _ _ log => log.tally
  | _ => .zero

namespace Template.Instruction

/-- What is counted when an instruction is carried out. -/
def tally (i : Instruction) : Tally :=
  if i.ignored then { Tally.zero with unsupported := 1 } else .zero

variable {facts : Facts} {name : String} {r r' : Registers} {answer : Option String}
  {i : Instruction} {sent : List Emission} {log : Log}

theorem Sends.tally (h : i.Sends name r r' sent log) (hi : ¬ i.ignored) : log.tally = .zero := by
  cases h with
  | ignored h => exact absurd h hi
  | _ => rfl

/-- What an instruction does counts what the instruction counts. -/
theorem tally_deed {d : Deed} (h : i.deed facts name r answer = .ok d) : d.tally = i.tally := by
  unfold Instruction.tally
  split
  · rename_i hi
    rw [deed_of_ignored hi] at h
    rw [← Except.ok.inj h]
    rfl
  · rename_i hi
    rcases deed_cases h with ⟨r', sent, log, rfl, hsends⟩ | hm
    · exact hsends.tally hi
    · cases d with
      | send => exact absurd hm move?_ne_send
      | _ => rfl

theorem tally_of_fault {fault : Fault} (h : i.deed facts name r answer = .error fault) :
    i.tally = .zero := by
  unfold Instruction.tally
  split
  · rename_i hi
    rw [deed_of_ignored hi] at h
    cases h
  · rfl

end Template.Instruction

/-! ### Steps -/

/-- What is counted of a run that stands like this: how it ended, if it has. -/
def RunState.tally : RunState → Tally
  | .finished o => Execution.tallyOf o
  | _ => .zero

namespace Execution

variable {store : Store} {facts : Facts} {e : Execution}

/-- What is counted of the instruction a run stands at, when it is carried out. -/
def due (e : Execution) : Tally :=
  if e.hidden then .zero
  else
    match e.frames with
    | [] => .zero
    | f :: _ => ((f.template.at? f.position).map Instruction.tally).getD .zero

theorem tally_logOf (o : Outcome) : (logOf o).tally = tallyOf o := by
  cases o <;> rfl

theorem tally_finish (e : Execution) (o : Outcome) :
    (e.finish o).log.tally = (e.finish o).execution.state.tally := tally_logOf o

theorem tally_leave (hr : e.state = .running) (o : Outcome) :
    (e.leave o).log.tally = (e.leave o).execution.state.tally := by
  unfold leave
  dsimp only
  split
  · exact tally_logOf o
  · show Tally.zero = e.state.tally
    rw [hr]
    rfl

theorem tally_branch (hr : e.state = .running) (label : String) :
    (e.branch label).log.tally = (e.branch label).execution.state.tally := by
  have hrunning : Tally.zero = e.state.tally := by rw [hr]; rfl
  unfold branch
  split
  · exact hrunning
  · split
    · show Tally.zero = (e.goTo _).state.tally
      rw [state_goTo]
      exact hrunning
    · exact tally_logOf _

theorem tally_includeNamed (hr : e.state = .running) {name : String} {a : Advance}
    (h : e.includeNamed store name = .ok a) : a.log.tally = a.execution.state.tally := by
  unfold includeNamed at h
  split at h
  · cases h
  · split at h <;> cases h
    · show Tally.zero = e.next.state.tally
      rw [state_next, hr]
      rfl
    · rfl

/-- Doing what an instruction asks for counts what it counts, and the end of the run. -/
theorem tally_obey (hr : e.state = .running) {d : Deed} {a : Advance}
    (h : e.obey store d = .ok a) : a.log.tally = d.tally + a.execution.state.tally := by
  cases d with
  | send r sent log =>
    cases h
    have hn : (e.remember r).next.state = .running := ((e.remember r).state_next).trans hr
    show log.tally = log.tally + (e.remember r).next.state.tally
    rw [hn]
    exact (Tally.add_zero _).symm
  | branch label =>
    cases h
    exact (tally_branch hr label).trans (Tally.zero_add _).symm
  | top =>
    cases h
    show Tally.zero = Tally.zero + (e.goTo 0).state.tally
    rw [state_goTo, hr]
    rfl
  | call name => exact (tally_includeNamed hr h).trans (Tally.zero_add _).symm
  | wait w =>
    cases h
    rfl
  | leave =>
    cases h
    exact (tally_leave hr _).trans (Tally.zero_add _).symm
  | stop reason =>
    cases h
    exact (e.tally_finish _).trans (Tally.zero_add _).symm

theorem tally_attempt (hr : e.state = .running) {f : Frame} {below : List Frame}
    (hf : e.frames = f :: below) (i : Instruction) :
    (e.attempt store facts f i).log.tally =
      i.tally + (e.attempt store facts f i).execution.state.tally := by
  have hnext : e.next.state.tally = .zero := by
    rw [state_next, hr]
    rfl
  cases hd : i.deed facts f.template.name e.registers e.response with
  | error fault =>
    rw [attempt_of_error hf (perform_of_fault hd), Instruction.tally_of_fault hd, Tally.zero_add]
    exact hnext.symm
  | ok d =>
    have hperform : e.perform store facts f.template.name i = e.obey store d :=
      perform_of_deed hd
    rw [← Instruction.tally_deed hd]
    cases ho : e.obey store d with
    | error fault =>
      rw [attempt_of_error hf (hperform.trans ho)]
      -- only an include can go wrong now, and it counts nothing
      cases d with
      | call name => exact hnext.symm.trans (Tally.zero_add _).symm
      | _ => cases ho
    | ok a =>
      rw [attempt_of_ok hf (hperform.trans ho)]
      exact tally_obey hr ho

theorem tally_hide (hr : e.state = .running) (i : Instruction) :
    (e.hide i).log.tally = (e.hide i).execution.state.tally := by
  have hnext : Tally.zero = e.next.state.tally := by
    rw [state_next, hr]
    rfl
  unfold hide
  split
  · split <;> exact hnext
  all_goals exact hnext

/-- **A step counts the instruction it carries out and the end it leads to.** -/
theorem tally_step (hr : e.state = .running) (store : Store) (facts : Facts) :
    (e.step store facts).log.tally =
      e.due + (e.step store facts).execution.state.tally := by
  unfold step due
  cases hf : e.frames with
  | nil =>
    dsimp only
    rw [ite_self, Tally.zero_add]
    exact e.tally_finish _
  | cons f below =>
    dsimp only
    cases hi : f.template.at? f.position with
    | none =>
      dsimp only [Option.map_none, Option.getD_none]
      rw [ite_self, Tally.zero_add]
      exact tally_leave hr _
    | some i =>
      dsimp only [Option.map_some, Option.getD_some]
      split
      · rw [Tally.zero_add]
        exact tally_hide hr i
      · exact tally_attempt hr hf i

/-! ### Other operations -/

theorem tally_deliver (e : Execution) (line : String) : (e.deliver line).log.tally = .zero := by
  unfold deliver
  split
  · split <;> rfl
  · rfl

theorem tally_enter (e : Execution) (t : Template) : (e.enter t).log.tally = .zero := by
  unfold enter
  split <;> rfl

theorem tally_abort (e : Execution) (error : RunError) : (e.abort error).log.tally =
    if e.outcome?.isSome then .zero else tallyOf (.aborted error) := by
  unfold abort outcome?
  cases e.state <;> rfl

end Execution

theorem Store.tally_compile_of_ok {s : Store} {d : Draft} {t : Template} (h : d.compiled = .ok t) :
    (s.compile d.name d.source).log.tally = { Tally.zero with compiled := 1 } := by
  unfold Store.compile
  rw [show Template.compile (Store.baseName d.name) d.source = .ok t from h]
  rfl

theorem Store.tally_compile_of_error {s : Store} {d : Draft} {e : CompileError}
    (h : d.compiled = .error e) :
    (s.compile d.name d.source).log.tally = { Tally.zero with rejected := 1 } := by
  unfold Store.compile
  rw [show Template.compile (Store.baseName d.name) d.source = .error e from h]
  rfl

/-- What is counted in an operation. -/
def Stage.counts (s : Stage) : Operation → Tally
  | .compile name source => (s.store.compile name source).log.tally
  | o => (s.does o).log.tally

end BulletinBoard
