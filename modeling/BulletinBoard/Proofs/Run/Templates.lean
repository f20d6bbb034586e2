/-
# The templates of a run

A run gets its templates from the store, from whoever hands it one, and from nowhere else. So what
holds of the templates of a run goes on to hold of them if it holds of those in the store.

Key definitions: `Execution.Runs`.
Key theorems: `Execution.Runs.step`, `Execution.Runs.proceed`.
-/
import BulletinBoard.Proofs.Run.Stepping

namespace BulletinBoard

open Text Template

namespace Execution

/-- Every template that is being run is of a kind. -/
def Runs (P : Template → Prop) (e : Execution) : Prop := ∀ f ∈ e.frames, P f.template

namespace Runs

variable {P : Template → Prop} {store : Store} {facts : Facts} {e : Execution}

theorem start {t : Template} (ht : P t) (charset : Charset) :
    (Execution.start t charset).Runs P := by
  intro f hf
  cases List.mem_singleton.mp hf
  exact ht

theorem moved {f : Frame} {below : List Frame} (h : e.Runs P) (hf : e.frames = f :: below)
    (p : Nat) : ∀ g ∈ { f with position := p } :: below, P g.template := by
  intro g hg
  rcases List.mem_cons.mp hg with rfl | hg
  · exact h f (hf ▸ List.mem_cons_self)
  · exact h g (hf ▸ List.mem_cons_of_mem _ hg)

theorem next (h : e.Runs P) : e.next.Runs P := by
  cases hf : e.frames with
  | nil =>
    unfold Execution.next
    rwa [hf]
  | cons f below =>
    rw [next_of_frames hf]
    exact h.moved hf _

theorem goTo (h : e.Runs P) (p : Nat) : (e.goTo p).Runs P := by
  cases hf : e.frames with
  | nil =>
    unfold Execution.goTo
    rwa [hf]
  | cons f below =>
    rw [goTo_of_frames hf]
    exact h.moved hf _

theorem leave (h : e.Runs P) (o : Outcome) : (e.leave o).execution.Runs P := by
  have ht : ∀ f ∈ e.frames.tail, P f.template := fun f hf => h f (List.mem_of_mem_tail hf)
  unfold Execution.leave
  dsimp only
  split <;> exact ht

theorem enter (h : e.Runs P) {t : Template} (ht : P t) : (e.enter t).execution.Runs P := by
  unfold Execution.enter
  split
  · intro f hf
    rcases List.mem_cons.mp hf with rfl | hf
    · exact ht
    · exact h f hf
  · exact h

theorem deliver (h : e.Runs P) (line : String) : (e.deliver line).execution.Runs P := by
  unfold Execution.deliver
  split
  · split <;> exact h
  · exact h

theorem abort (h : e.Runs P) (error : RunError) : (e.abort error).execution.Runs P := by
  unfold Execution.abort
  split <;> exact h

/-- A step runs templates that are being run already, and templates of the store. -/
theorem step (h : e.Runs P) (hs : ∀ name t, store.lookup? name = some t → P t) :
    (e.step store facts).execution.Runs P := by
  have hstep := e.stepsTo_step store facts
  generalize e.step store facts = a at hstep ⊢
  cases hstep with
  | ended => exact h
  | left => exact h.leave _
  | passed _ _ r => exact (show (e.remember r).Runs P from h).next
  | moved => exact h.goTo _
  | called _ _ _ _ _ ht =>
    intro f hf
    rcases List.mem_cons.mp hf with rfl | hf
    · exact hs _ _ ht
    · exact h.next f hf
  | asked => exact h.next
  | waited => exact h.next
  | halted => exact h
  | lost => exact h

theorem proceed (h : e.Runs P) (hs : ∀ name t, store.lookup? name = some t → P t)
    (facts : ChangingFacts) (budget made : Nat) :
    (e.proceed store facts budget made).1.execution.Runs P := by
  refine proceed_induction (P := fun e a => e.Runs P → a.execution.Runs P) (fun _ h => h) ?_ facts
    budget made e h
  exact fun facts e rest _ hrest h => hrest (h.step hs)

theorem advance (h : e.Runs P) (hs : ∀ name t, store.lookup? name = some t → P t) (budget : Nat) :
    (e.advance store facts budget).execution.Runs P := h.proceed hs facts budget 0

end Runs

end Execution

end BulletinBoard
