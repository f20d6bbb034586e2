/-
# Templates that go forward

Templates may include each other, and themselves, but not without end: they are not stacked higher
than they may be. So where no template goes back to its top or to a label, a run ends by itself. What
bounds it is how many steps are still ahead (`Execution.ahead`), counted over all that is stacked: an
instruction that includes a template counts as much as the largest template that fits above.

Key definitions: `Template.GoesForward`, `stepsWithin`, `Execution.ahead`, `Execution.stepsMade`.
Key theorems: `stepsWithin_eq`, `Execution.ahead_step`, `Stage.total_add_ahead_le`,
`Stage.ends_of_goesForward`.
-/
import BulletinBoard.Proofs.Run.Budget
import BulletinBoard.Proofs.Run.Supply
import Mathlib.Algebra.Ring.GeomSum
import Mathlib.Tactic.Ring

namespace BulletinBoard

open Text Template

/-- The template has no more than so many instructions, and none of them goes to the top or to a
label. -/
structure Template.GoesForward (most : Nat) (t : Template) : Prop where
  size : t.size ≤ most
  onward : ∀ i ∈ t.instructions, ¬ i.Branches ∧ i.kind ≠ .top

/-! ### Steps ahead -/

/-- How many steps a template of at most `most` instructions takes at most where there is room for
so many levels, its own among them: one at its end, and for each instruction one and those of a
template above. -/
def stepsWithin (most : Nat) : Nat → Nat
  | 0 => 0
  | levels + 1 => 1 + most * (1 + stepsWithin most levels)

theorem stepsWithin_eq (most levels : Nat) :
    stepsWithin most levels = (most + 1) * ∑ k ∈ Finset.range levels, most ^ k := by
  induction levels with
  | zero => rfl
  | succ levels ih =>
    rw [stepsWithin, ih, geom_sum_succ]
    ring

/-- How many steps the templates of a stack may still take. -/
def stepsAhead (most : Nat) : List Frame → Nat
  | [] => 0
  | f :: below =>
    1 + (f.template.size - f.position) *
      (1 + stepsWithin most (includeLimit - (below.length + 1))) + stepsAhead most below

theorem stepsAhead_enter {most : Nat} {t : Template} {below : List Frame}
    (ht : t.GoesForward most) (hd : below.length < includeLimit) :
    stepsAhead most (⟨t, 0⟩ :: below) ≤
      stepsWithin most (includeLimit - below.length) + stepsAhead most below := by
  have hroom : includeLimit - below.length = includeLimit - (below.length + 1) + 1 := by omega
  rw [hroom, stepsWithin, stepsAhead]
  exact Nat.add_le_add_right (Nat.add_le_add_left (Nat.mul_le_mul_right _ ht.size) _) _

namespace Execution

variable {most : Nat} {store : Store} {facts : Facts} {e : Execution}

/-- An instruction that is passed leaves room for the steps of a template above. -/
theorem stepsAhead_next (most : Nat) {f : Frame} {below : List Frame} {i : Instruction}
    (hf : e.frames = f :: below) (hi : f.template.at? f.position = some i) :
    stepsAhead most e.next.frames + (1 + stepsWithin most (includeLimit - e.frames.length)) =
      stepsAhead most e.frames := by
  have hlt := Frame.position_lt hi
  have hleft : f.template.size - f.position = f.template.size - (f.position + 1) + 1 := by omega
  rw [next_of_frames hf, hf, stepsAhead, stepsAhead, hleft, Nat.succ_mul]
  dsimp only [List.length_cons]
  omega

/-- How many steps a run may still make. One that waits for a template may make the steps of that
template too. -/
def ahead (most : Nat) (e : Execution) : Nat :=
  match e.state with
  | .running | .suspended _ => stepsAhead most e.frames
  | .including _ => stepsWithin most (includeLimit - e.frames.length) + stepsAhead most e.frames
  | .finished _ => 0

theorem ahead_of_running (most : Nat) (h : e.state = .running) :
    e.ahead most = stepsAhead most e.frames := by
  unfold ahead
  rw [h]

theorem ahead_start {t : Template} (ht : t.GoesForward most) (charset : Charset) :
    (start t charset).ahead most ≤ stepsWithin most includeLimit := by
  have henter : stepsAhead most (⟨t, 0⟩ :: []) ≤ _ := stepsAhead_enter ht (Nat.succ_pos _)
  rwa [List.length_nil, Nat.sub_zero, stepsAhead.eq_1, Nat.add_zero] at henter

theorem ahead_leave (h : e.state = .running) (o : Outcome) :
    (e.leave o).execution.ahead most ≤ stepsAhead most e.frames.tail := by
  unfold leave
  dsimp only
  split
  · exact Nat.zero_le _
  · unfold ahead Advance.quiet
    rw [h]

/-- Each step brings a run on, if no template goes back. -/
theorem ahead_step (h : e.Sound) (hr : e.state = .running) (hrun : e.Runs (GoesForward most))
    (hs : store.Holds (GoesForward most)) (facts : Facts) :
    (e.step store facts).execution.ahead most < e.ahead most := by
  rw [ahead_of_running most hr]
  have hstep := e.stepsTo_step store facts
  generalize e.step store facts = a at hstep ⊢
  cases hstep with
  | ended hf => exact absurd hf (h.frames_ne_nil (by simp [hr]))
  | left hf =>
    refine (ahead_leave hr _).trans_lt ?_
    rw [hf, List.tail_cons, stepsAhead]
    omega
  | passed hf hi r =>
    have hnext : (e.remember r).next.ahead most = stepsAhead most (e.remember r).next.frames :=
      ahead_of_running most ((state_next _).trans hr)
    have hless := stepsAhead_next most (e := e.remember r) hf hi
    exact hnext.trans_lt (hless ▸ Nat.lt_add_of_pos_right (by omega))
  | moved hf hi _ hp =>
    have honward := (hrun _ (hf ▸ List.mem_cons_self)).onward _ (List.mem_of_getElem? hi)
    rcases hp with ⟨hk, -⟩ | ⟨hb, -⟩
    · exact absurd hk honward.2
    · exact absurd hb honward.1
  | @called _ _ _ t hf hi _ _ hd ht =>
    have hless := stepsAhead_next most hf hi
    have henter := stepsAhead_enter (hs.of_lookup? ht) ((length_frames_next e).trans_lt hd)
    rw [length_frames_next] at henter
    have hcalled := ahead_of_running most
      (e := { e.next with frames := ⟨t, 0⟩ :: e.next.frames }) ((state_next e).trans hr)
    exact hcalled.trans_lt (henter.trans_lt (by omega))
  | asked hf hi =>
    have hless := stepsAhead_next most hf hi
    show stepsWithin most (includeLimit - e.next.frames.length) + stepsAhead most e.next.frames < _
    rw [length_frames_next]
    omega
  | waited hf hi =>
    have hless := stepsAhead_next most hf hi
    show stepsAhead most e.next.frames < _
    omega
  | halted hf | lost hf =>
    rw [hf, stepsAhead]
    show 0 < _
    omega

/-! ### Steps made -/

/-- How many steps a run makes out of a budget. -/
def stepsMade (store : Store) (facts : Facts) : Nat → Execution → Nat
  | 0, _ => 0
  | budget + 1, e =>
    match e.state with
    | .running => stepsMade store facts budget (e.step store facts).execution + 1
    | _ => 0

theorem stepsMade_succ (h : e.state = .running) (budget : Nat) :
    e.stepsMade store facts (budget + 1) =
      (e.step store facts).execution.stepsMade store facts budget + 1 := by
  rw [stepsMade, h]

theorem stepsMade_of_ne_running (h : e.state ≠ .running) (budget : Nat) :
    e.stepsMade store facts budget = 0 := by
  cases budget with
  | zero => rfl
  | succ budget =>
    unfold stepsMade
    split
    · contradiction
    · rfl

theorem stepsMade_of_yields {budget : Nat}
    (h : (e.advance store facts budget).execution.state = .running) :
    e.stepsMade store facts budget = budget := by
  induction budget generalizing e with
  | zero => rfl
  | succ budget ih =>
    by_cases hr : e.state = .running
    · rw [advance_succ hr] at h
      rw [stepsMade_succ hr, ih h]
    · rw [advance_of_ne_running hr] at h
      exact absurd h hr

theorem stepsMade_add_ahead_le (h : e.Sound) (hrun : e.Runs (GoesForward most))
    (hs : store.Holds (GoesForward most)) (facts : Facts) (budget : Nat) :
    e.stepsMade store facts budget + (e.advance store facts budget).execution.ahead most ≤
      e.ahead most := by
  induction budget generalizing e with
  | zero =>
    rw [stepsMade, Nat.zero_add]
    exact Nat.le_refl _
  | succ budget ih =>
    by_cases hr : e.state = .running
    · have hstep := ahead_step h hr hrun hs facts
      have hrest := ih (h.step hr store facts) (hrun.step fun _ _ => hs.of_lookup?)
      rw [stepsMade_succ hr, advance_succ hr]
      dsimp only
      omega
    · rw [stepsMade_of_ne_running hr, advance_of_ne_running hr, Nat.zero_add]
      exact Nat.le_refl _

theorem ahead_deliver (e : Execution) (line : String) :
    (e.deliver line).execution.ahead most ≤ e.ahead most := by
  unfold deliver
  split
  · rename_i w hw
    split
    · unfold ahead
      rw [hw]
      exact Nat.le_refl _
    · exact Nat.le_refl _
  · exact Nat.le_refl _

theorem ahead_enter (h : e.Sound) {t : Template} (ht : t.GoesForward most) :
    (e.enter t).execution.ahead most ≤ e.ahead most := by
  unfold enter
  split
  · rename_i name hname
    obtain ⟨-, hd, -⟩ := h.including name hname
    unfold ahead
    rw [hname]
    exact stepsAhead_enter ht hd
  · exact Nat.le_refl _

theorem ahead_abort (e : Execution) (error : RunError) :
    (e.abort error).execution.ahead most ≤ e.ahead most := by
  unfold abort
  split
  · exact Nat.le_refl _
  · exact Nat.zero_le _

end Execution

/-! ### Operations -/

namespace Stage

variable {most : Nat} {s : Stage}

/-- How many steps an operation makes. -/
def stepsOf (s : Stage) : Operation → Nat
  | .advance => s.execution.stepsMade s.store s.facts stepBudget
  | _ => 0

/-- Counts the operations in which the run yields. -/
def yieldsOf (s : Stage) : Operation → Nat
  | .advance => if (s.operate .advance).execution.state = .running then 1 else 0
  | _ => 0

/-- What is counted of each operation, over all of them. -/
def total (count : Stage → Operation → Nat) : Stage → List Operation → Nat
  | _, [] => 0
  | s, o :: rest => count s o + total count (s.operate o) rest

theorem stepsOf_add_ahead_le (h : s.Supplied (GoesForward most)) (hsound : s.execution.Sound)
    {o : Operation} (ho : o.Brings (GoesForward most)) :
    s.stepsOf o + (s.operate o).execution.ahead most ≤ s.execution.ahead most := by
  cases o with
  | advance => exact Execution.stepsMade_add_ahead_le hsound h.execution h.store _ _
  | deliver line => exact (Nat.zero_add _).trans_le (s.execution.ahead_deliver line)
  | enter t => exact (Nat.zero_add _).trans_le (Execution.ahead_enter hsound ho)
  | abort error => exact (Nat.zero_add _).trans_le (s.execution.ahead_abort error)
  | compile name source => exact (Nat.zero_add _).le
  | inform facts => exact (Nat.zero_add _).le

/-- Whatever is done with a run, the steps it has made are no longer ahead. -/
theorem total_add_ahead_le (h : s.Supplied (GoesForward most)) (hsound : s.execution.Sound)
    {operations : List Operation} (ho : ∀ o ∈ operations, o.Brings (GoesForward most)) :
    s.total stepsOf operations + (operations.foldl operate s).execution.ahead most ≤
      s.execution.ahead most := by
  induction operations generalizing s with
  | nil => exact (Nat.zero_add _).le
  | cons o rest ih =>
    obtain ⟨hfirst, hrest⟩ := List.forall_mem_cons.mp ho
    have hstep := stepsOf_add_ahead_le h hsound hfirst
    have hlater := ih (h.operate hfirst) (sound_operate hsound o) hrest
    rw [total, List.foldl_cons]
    omega

/-- A run that yields has made all the steps of that call. -/
theorem stepBudget_mul_yieldsOf_le (s : Stage) (o : Operation) :
    stepBudget * s.yieldsOf o ≤ s.stepsOf o := by
  cases o with
  | advance =>
    unfold yieldsOf
    dsimp only
    split
    · rename_i hr
      rw [Nat.mul_one]
      exact (Execution.stepsMade_of_yields hr).ge
    · exact Nat.zero_le _
  | _ => exact Nat.zero_le _

theorem stepBudget_mul_total_le (s : Stage) (operations : List Operation) :
    stepBudget * s.total yieldsOf operations ≤ s.total stepsOf operations := by
  induction operations generalizing s with
  | nil => exact Nat.zero_le _
  | cons o rest ih =>
    rw [total, total, Nat.mul_add]
    exact Nat.add_le_add (s.stepBudget_mul_yieldsOf_le o) (ih _)

/-- **Templates that go forward come to an end.** If no template that can get into a run goes to its
top or to a label, and none has more than `most` instructions, all operations on the run together
make no more steps than a geometric sum with a term for each level. So the run yields no more often
than that allows, and wherever it stands it stops if it is advanced often enough. -/
theorem ends_of_goesForward {t : Template} {store : Store} {operations : List Operation}
    (ht : t.GoesForward most) (hs : store.Holds (GoesForward most))
    (ho : ∀ o ∈ operations, o.Brings (GoesForward most)) (charset : Charset) (facts : Facts) :
    (⟨store, facts, .start t charset⟩ : Stage).total stepsOf operations ≤
      (most + 1) * ∑ k ∈ Finset.range includeLimit, most ^ k ∧
    stepBudget * (⟨store, facts, .start t charset⟩ : Stage).total yieldsOf operations ≤
      (most + 1) * ∑ k ∈ Finset.range includeLimit, most ^ k ∧
    ∀ s calls, s = operations.foldl operate ⟨store, facts, .start t charset⟩ →
      (most + 1) * ∑ k ∈ Finset.range includeLimit, most ^ k < calls * stepBudget →
      (s.execution.advances s.store s.facts stepBudget calls).execution.state ≠ .running := by
  have hsupplied : (⟨store, facts, .start t charset⟩ : Stage).Supplied (GoesForward most) :=
    ⟨hs, .start ht charset⟩
  have hsound : (⟨store, facts, .start t charset⟩ : Stage).execution.Sound := .start t charset
  have hall := total_add_ahead_le hsupplied hsound ho
  have hstart : (⟨store, facts, .start t charset⟩ : Stage).execution.ahead most ≤
      stepsWithin most includeLimit := Execution.ahead_start ht charset
  have hyields := (⟨store, facts, .start t charset⟩ : Stage).stepBudget_mul_total_le operations
  rw [← stepsWithin_eq]
  refine ⟨by omega, by omega, ?_⟩
  intro s calls hlast hcalls
  rw [← hlast] at hall
  have hafter : s.Supplied (GoesForward most) := hlast ▸ hsupplied.operations ho
  have hsoundly : s.execution.Sound := hlast ▸ sound_operations t charset store facts operations
  have hmade := Execution.stepsMade_add_ahead_le hsoundly hafter.execution hafter.store s.facts
    (calls * stepBudget)
  rw [Execution.advances_eq_advance]
  intro hr
  rw [Execution.stepsMade_of_yields hr] at hmade
  omega

/-! ### A template that includes itself twice -/

/-- It doubles itself on every level there is room for. -/
def doubling : Template :=
  .of "t" "[include t][include t]" [⟨.includes, ["t"], "include"⟩, ⟨.includes, ["t"], "include"⟩]

/-- A run of it makes as many steps as it may, and a single call is enough for them. -/
theorem ends_of_goesForward_doubling :
    Template.compile "t" doubling.source = .ok doubling ∧ doubling.GoesForward 2 ∧
    (⟨⟨[("t", doubling)], none⟩, Facts.empty, .start doubling .utf8⟩ : Stage).total stepsOf
      [.advance] = (2 + 1) * ∑ k ∈ Finset.range includeLimit, 2 ^ k ∧
    (⟨⟨[("t", doubling)], none⟩, Facts.empty, .start doubling .utf8⟩ : Stage).total yieldsOf
      [.advance] = 0 ∧
    ((Execution.start doubling .utf8).advances ⟨[("t", doubling)], none⟩ Facts.empty stepBudget
      1).execution.state ≠ .running := by
  have hforward : doubling.GoesForward 2 := ⟨by decide, by decide⟩
  have hstore : (⟨[("t", doubling)], none⟩ : Store).Holds (GoesForward 2) := by
    intro name t ht
    cases List.mem_singleton.mp ht
    exact hforward
  have hbound : (2 + 1) * ∑ k ∈ Finset.range includeLimit, 2 ^ k < 1 * stepBudget := by decide
  have hadvance : ∀ o ∈ [Operation.advance], o.Brings (GoesForward 2) :=
    List.forall_mem_singleton.mpr trivial
  have hnothing : ∀ o ∈ ([] : List Operation), o.Brings (GoesForward 2) := fun _ h => by cases h
  obtain ⟨-, hyields, -⟩ := ends_of_goesForward hforward hstore hadvance .utf8 Facts.empty
  obtain ⟨-, -, hstops⟩ := ends_of_goesForward hforward hstore hnothing .utf8 Facts.empty
  have hstop := hstops _ 1 rfl hbound
  dsimp only [List.foldl_nil] at hstop
  refine ⟨by decide, hforward, by decide +kernel, ?_, hstop⟩
  have hlt := hyields.trans_lt (hbound.trans_eq (Nat.one_mul _))
  exact Nat.lt_one_iff.mp (Nat.lt_of_mul_lt_mul_left (hlt.trans_eq (Nat.mul_one _).symm))

end Stage

end BulletinBoard
