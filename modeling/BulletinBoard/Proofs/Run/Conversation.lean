/-
# Conversations

A run and whoever advances it. As long as the run yields it is advanced again; when it waits it is
given the next answer, and when no answer is left it is left alone. What shows are the bytes it
sends, and how it stands and which answer it holds after every call, but for calls after which it
has yielded.

Where the steps of one call end does not show: `converse`, which makes calls, shows what `watch`
shows, which makes steps (`shows_iff_watch`). So two runs show the same if each can follow the other
by stretches of steps (`Follows.shows_iff`), however many steps they take.

Key definitions: `Answer`, `Sight`, `converse`, `Shows`, `watch`, `Follows`.
Key theorems: `shows_iff_watch`, `watch_prefix_of_follows`, `Follows.shows_iff`.
-/
import BulletinBoard.Proofs.Run.Stepping
import Mathlib.Data.List.Forall2

namespace BulletinBoard

open Text Template

/-- What a run that waits is given. -/
inductive Answer where
  | line (text : String)
  | template (t : Template)
  | abort (error : RunError)

/-- The run after it was given an answer. -/
def Answer.give (x : Answer) (e : Execution) : Execution :=
  match x with
  | line text => (e.deliver text).execution
  | template t => (e.enter t).execution
  | abort error => (e.abort error).execution

/-- What shows of a run: a byte it sends, or how it stands after a call. -/
inductive Sight where
  | byte (b : UInt8)
  | call (state : RunState) (response : Option String)

/-- What an operation sends, byte by byte. -/
def Advance.sights (a : Advance) : List Sight := a.bytes.map .byte

/-- How a run stands after a call. -/
def Execution.sight (e : Execution) : Sight := .call e.state e.response

/-- What shows of a run that is advanced so many times and is given answers when it waits. -/
def converse (budget : Nat) (store : Store) (facts : Facts) :
    Nat → List Answer → Execution → List Sight
  | 0, _, _ => []
  | calls + 1, answers, e =>
    let a := e.advance store facts budget
    a.sights ++
      if a.execution.state = .running then converse budget store facts calls answers a.execution
      else
        match answers with
        | [] => [a.execution.sight]
        | x :: rest =>
          a.execution.sight :: (x.give a.execution).sight ::
            converse budget store facts calls rest (x.give a.execution)

/-- Some number of calls shows at least this. -/
def Shows (store : Store) (facts : Facts) (answers : List Answer) (e : Execution)
    (seen : List Sight) : Prop :=
  ∃ calls, seen <+: converse stepBudget store facts calls answers e

/-! ### Step by step -/

/-- What shows of a run in so many steps and answers. -/
def watch (store : Store) (facts : Facts) : Nat → List Answer → Execution → List Sight
  | 0, _, _ => []
  | n + 1, answers, e =>
    if e.state = .running then
      (e.step store facts).sights ++ watch store facts n answers (e.step store facts).execution
    else
      match answers with
      | [] => [e.sight]
      | x :: rest => e.sight :: (x.give e).sight :: watch store facts n rest (x.give e)

section

variable {store : Store} {facts : Facts} {e : Execution}

theorem watch_step (h : e.state = .running) (n : Nat) (answers : List Answer) :
    watch store facts (n + 1) answers e =
      (e.step store facts).sights ++
        watch store facts n answers (e.step store facts).execution := by
  cases answers <;> rw [watch, if_pos h]

theorem watch_nil (h : e.state ≠ .running) (n : Nat) :
    watch store facts (n + 1) [] e = [e.sight] := by
  rw [watch, if_neg h]

theorem watch_give (h : e.state ≠ .running) (n : Nat) (x : Answer) (rest : List Answer) :
    watch store facts (n + 1) (x :: rest) e =
      e.sight :: (x.give e).sight :: watch store facts n rest (x.give e) := by
  rw [watch, if_neg h]

theorem watch_prefix_succ (n : Nat) (answers : List Answer) (e : Execution) :
    watch store facts n answers e <+: watch store facts (n + 1) answers e := by
  induction n generalizing answers e with
  | zero => exact List.nil_prefix
  | succ n ih =>
    by_cases h : e.state = .running
    · rw [watch_step h, watch_step h]
      exact (List.prefix_append_right_inj _).mpr (ih _ _)
    · cases answers with
      | nil =>
        have hw : watch store facts (n + 1) [] e = watch store facts (n + 1 + 1) [] e := by
          rw [watch_nil h, watch_nil h]
        exact hw ▸ List.prefix_rfl
      | cons x rest =>
        rw [watch_give h, watch_give h]
        exact List.cons_prefix_cons.mpr ⟨rfl, List.cons_prefix_cons.mpr ⟨rfl, ih _ _⟩⟩

theorem watch_prefix_of_le {m n : Nat} (h : m ≤ n) (answers : List Answer) (e : Execution) :
    watch store facts m answers e <+: watch store facts n answers e := by
  induction h with
  | refl => exact List.prefix_rfl
  | step _ ih => exact ih.trans (watch_prefix_succ _ _ _)

/-- A stretch of steps shows what it sends, and then what the run shows from there. -/
theorem watch_advance (store : Store) (facts : Facts) (budget : Nat) (e : Execution) :
    ∃ j, (e.state = .running → 0 < budget → 0 < j) ∧
      ∀ n answers, watch store facts (j + n) answers e =
        (e.advance store facts budget).sights ++
          watch store facts n answers (e.advance store facts budget).execution := by
  induction budget generalizing e with
  | zero => exact ⟨0, fun _ h => h, fun n answers => by rw [Nat.zero_add]; rfl⟩
  | succ budget ih =>
    by_cases h : e.state = .running
    · obtain ⟨j, -, hj⟩ := ih (e.step store facts).execution
      refine ⟨j + 1, fun _ _ => Nat.succ_pos j, fun n answers => ?_⟩
      have hb : (e.advance store facts (budget + 1)).sights =
          (e.step store facts).sights ++
            ((e.step store facts).execution.advance store facts budget).sights := by
        rw [Advance.sights, Execution.bytes_advance_succ h, List.map_append]
        rfl
      rw [show j + 1 + n = j + n + 1 by omega, watch_step h, hj, hb, List.append_assoc,
        Execution.advance_succ h]
    · refine ⟨0, fun hr => absurd hr h, fun n answers => ?_⟩
      rw [Execution.advance_of_ne_running h, Nat.zero_add]
      rfl

/-- So many calls show what some number of steps shows, and at least as many. -/
theorem exists_watch_eq_converse {budget : Nat} (hb : 0 < budget) (calls : Nat)
    (answers : List Answer) (e : Execution) :
    ∃ n, calls ≤ n ∧
      converse budget store facts calls answers e = watch store facts n answers e := by
  induction calls generalizing answers e with
  | zero => exact ⟨0, Nat.le_refl 0, rfl⟩
  | succ calls ih =>
    obtain ⟨j, hj, hw⟩ := watch_advance store facts budget e
    by_cases hr : (e.advance store facts budget).execution.state = .running
    · have hpos : 0 < j := by
        refine hj ?_ hb
        by_contra hne
        rw [Execution.advance_of_ne_running hne] at hr
        exact hne hr
      obtain ⟨n, hn, hc⟩ := ih answers (e.advance store facts budget).execution
      refine ⟨j + n, by omega, ?_⟩
      cases answers <;> rw [converse, if_pos hr, hc, hw]
    · cases answers with
      | nil => exact ⟨j + (calls + 1), by omega, by rw [converse, if_neg hr, hw, watch_nil hr]⟩
      | cons x rest =>
        obtain ⟨n, hn, hc⟩ := ih rest (x.give (e.advance store facts budget).execution)
        exact ⟨j + (n + 1), by omega, by rw [converse, if_neg hr, hw, watch_give hr, hc]⟩

/-- What shows call by call is what shows step by step. -/
theorem shows_iff_watch {answers : List Answer} {seen : List Sight} :
    Shows store facts answers e seen ↔ ∃ n, seen <+: watch store facts n answers e := by
  constructor
  · rintro ⟨calls, h⟩
    obtain ⟨n, -, hn⟩ := exists_watch_eq_converse (by decide : 0 < stepBudget) calls answers e
    exact ⟨n, hn ▸ h⟩
  · rintro ⟨n, h⟩
    obtain ⟨k, hk, hc⟩ := exists_watch_eq_converse (by decide : 0 < stepBudget) n answers e
    exact ⟨n, hc ▸ h.trans (watch_prefix_of_le hk answers e)⟩

end

/-! ### Two runs -/

/-- Runs related by `R` can follow one another: the first makes a stretch of steps and the second
makes one that sends the same, and answers related by `S` keep them related. -/
structure Follows (R : Execution → Execution → Prop) (S : Answer → Answer → Prop)
    (store₁ store₂ : Store) (facts : Facts) : Prop where
  sight : ∀ {e₁ e₂}, R e₁ e₂ → e₁.state = e₂.state ∧ e₁.response = e₂.response
  steps : ∀ {e₁ e₂}, R e₁ e₂ → e₁.state = .running → ∃ k₁ k₂, 0 < k₁ ∧ 0 < k₂ ∧
    (e₁.advance store₁ facts k₁).bytes = (e₂.advance store₂ facts k₂).bytes ∧
    R (e₁.advance store₁ facts k₁).execution (e₂.advance store₂ facts k₂).execution
  give : ∀ {e₁ e₂ x₁ x₂}, R e₁ e₂ → S x₁ x₂ → R (x₁.give e₁) (x₂.give e₂)

/-- **What a run shows, a run that can follow it shows too.** -/
theorem watch_prefix_of_follows {R : Execution → Execution → Prop} {S : Answer → Answer → Prop}
    {store₁ store₂ : Store} {facts : Facts} (hF : Follows R S store₁ store₂ facts) (n : Nat)
    {e₁ e₂ : Execution} (hR : R e₁ e₂) {answers₁ answers₂ : List Answer}
    (hS : List.Forall₂ S answers₁ answers₂) :
    ∃ m, watch store₁ facts n answers₁ e₁ <+: watch store₂ facts m answers₂ e₂ := by
  induction n using Nat.strongRecOn generalizing e₁ e₂ answers₁ answers₂ with
  | ind n ih =>
    have hsight : ∀ {e₁ e₂ : Execution}, R e₁ e₂ → e₁.sight = e₂.sight := fun h => by
      rw [Execution.sight, (hF.sight h).1, (hF.sight h).2]
      rfl
    rcases Nat.eq_zero_or_pos n with rfl | hn
    · exact ⟨0, List.nil_prefix⟩
    by_cases h₁ : e₁.state = .running
    · obtain ⟨k₁, k₂, hk₁, hk₂, hbytes, hR'⟩ := hF.steps hR h₁
      obtain ⟨j₁, hj₁, hw₁⟩ := watch_advance store₁ facts k₁ e₁
      obtain ⟨j₂, -, hw₂⟩ := watch_advance store₂ facts k₂ e₂
      have hpos := hj₁ h₁ hk₁
      obtain ⟨m, hm⟩ := ih (n - j₁) (by omega) hR' hS
      refine ⟨j₂ + m, (watch_prefix_of_le (show n ≤ j₁ + (n - j₁) by omega) _ _).trans ?_⟩
      rw [hw₁, hw₂, Advance.sights, Advance.sights, hbytes]
      exact (List.prefix_append_right_inj _).mpr hm
    · have h₂ : e₂.state ≠ .running := (hF.sight hR).1 ▸ h₁
      obtain ⟨n, rfl⟩ := Nat.exists_eq_succ_of_ne_zero (Nat.pos_iff_ne_zero.mp hn)
      cases hS with
      | nil =>
        have hw : watch store₁ facts (n + 1) [] e₁ = watch store₂ facts 1 [] e₂ := by
          rw [watch_nil h₁, watch_nil h₂, hsight hR]
        exact ⟨1, hw ▸ List.prefix_rfl⟩
      | cons hx hrest =>
        have hg := hF.give hR hx
        obtain ⟨m, hm⟩ := ih n (Nat.lt_succ_self n) hg hrest
        refine ⟨m + 1, ?_⟩
        rw [watch_give h₁, watch_give h₂, hsight hR, hsight hg]
        exact List.cons_prefix_cons.mpr ⟨rfl, List.cons_prefix_cons.mpr ⟨rfl, hm⟩⟩

namespace Follows

variable {R : Execution → Execution → Prop} {S : Answer → Answer → Prop} {store₁ store₂ : Store}
  {facts : Facts}

theorem symm (h : Follows R S store₁ store₂ facts) :
    Follows (fun e₁ e₂ => R e₂ e₁) (fun x₁ x₂ => S x₂ x₁) store₂ store₁ facts := by
  refine ⟨fun hR => ⟨(h.sight hR).1.symm, (h.sight hR).2.symm⟩, fun hR hr => ?_, h.give⟩
  obtain ⟨k₁, k₂, hk₁, hk₂, hbytes, hR'⟩ := h.steps hR ((h.sight hR).1.trans hr)
  exact ⟨k₂, k₁, hk₂, hk₁, hbytes.symm, hR'⟩

variable {e₁ e₂ : Execution} {answers₁ answers₂ : List Answer} {seen : List Sight}

theorem shows (h : Follows R S store₁ store₂ facts) (hR : R e₁ e₂)
    (hS : List.Forall₂ S answers₁ answers₂) (hseen : Shows store₁ facts answers₁ e₁ seen) :
    Shows store₂ facts answers₂ e₂ seen := by
  obtain ⟨n, hn⟩ := shows_iff_watch.mp hseen
  obtain ⟨m, hm⟩ := watch_prefix_of_follows h n hR hS
  exact shows_iff_watch.mpr ⟨m, hn.trans hm⟩

/-- **Runs that can follow one another show the same.** -/
theorem shows_iff (h : Follows R S store₁ store₂ facts) (hR : R e₁ e₂)
    (hS : List.Forall₂ S answers₁ answers₂) :
    Shows store₁ facts answers₁ e₁ seen ↔ Shows store₂ facts answers₂ e₂ seen :=
  ⟨h.shows hR hS, h.symm.shows hR hS.flip⟩

end Follows

end BulletinBoard
