/-
# How a run stands

What is true of a run whatever was done with it: advanced, given lines and templates, or aborted, in
any order and also out of turn, while the store and the facts change. Templates are not stacked
higher than they may be, every template below another waits behind the instruction that includes it,
and a run that waits stands behind the instruction it waits for.

One step keeps this, whatever it leads to (`Execution.Sound.step`), so advancing does; the other
operations only take a run that waits out of its wait.

Key definitions: `Stacked`, `Execution.Sound`, `Stage`, `Stage.operate`.
Key theorems: `Execution.Sound.step`, `Stage.sound_operations`.
-/
import BulletinBoard.Proofs.Run.Stepping

namespace BulletinBoard

open Text Template

/-! ### Stacks -/

namespace Frame

/-- The instruction a frame stands behind, if it is not at its first. -/
def passed? (f : Frame) : Option Instruction :=
  match f.position with
  | 0 => none
  | p + 1 => f.template.at? p

/-- The frame stands behind an instruction that includes the template of a name. -/
def Calls (f : Frame) (name : String) : Prop :=
  ∃ i, f.passed? = some i ∧ i.kind = .includes ∧ i.arg 0 = name

/-- The frame stands behind a prompt of a kind. -/
def Asks (f : Frame) (w : Wait) : Prop :=
  ∃ i p, f.passed? = some i ∧ i.kind = .prompt p ∧ p.wait = w

theorem passed?_next {f : Frame} {i : Instruction} (h : f.template.at? f.position = some i) :
    ({ f with position := f.position + 1 } : Frame).passed? = some i := h

theorem position_lt {f : Frame} {i : Instruction} (h : f.template.at? f.position = some i) :
    f.position < f.template.size :=
  (List.getElem?_eq_some_iff.mp h).1

end Frame

/-- What is true of the templates stacked in a run, the innermost first. -/
structure Stacked (frames : List Frame) : Prop where
  /-- There are no more than there may be. -/
  depth : frames.length ≤ includeLimit
  /-- None is run beyond its end. -/
  position : ∀ f ∈ frames, f.position ≤ f.template.size
  /-- All but the innermost wait for a template they include. -/
  below : ∀ f ∈ frames.tail, ∃ name, f.Calls name

namespace Stacked

variable {f : Frame} {below : List Frame}

theorem moved (h : Stacked (f :: below)) {p : Nat} (hp : p ≤ f.template.size) :
    Stacked ({ f with position := p } :: below) := by
  refine ⟨h.depth, fun g hg => ?_, h.below⟩
  rcases List.mem_cons.mp hg with rfl | hg
  · exact hp
  · exact h.position g (List.mem_cons_of_mem _ hg)

theorem next (h : Stacked (f :: below)) {i : Instruction}
    (hi : f.template.at? f.position = some i) :
    Stacked ({ f with position := f.position + 1 } :: below) :=
  h.moved (Frame.position_lt hi)

theorem left (h : Stacked (f :: below)) : Stacked below := by
  have hd := h.depth
  rw [List.length_cons] at hd
  exact ⟨by omega, fun g hg => h.position g (List.mem_cons_of_mem _ hg),
    fun g hg => h.below g (List.mem_of_mem_tail hg)⟩

theorem entered (h : Stacked (f :: below)) {name : String} (hc : f.Calls name)
    (hd : (f :: below).length < includeLimit) (t : Template) :
    Stacked (⟨t, 0⟩ :: f :: below) := by
  refine ⟨hd, fun g hg => ?_, fun g hg => ?_⟩
  · rcases List.mem_cons.mp hg with rfl | hg
    · exact Nat.zero_le _
    · exact h.position g hg
  · rcases List.mem_cons.mp hg with rfl | hg
    · exact ⟨name, hc⟩
    · exact h.below g hg

end Stacked

/-! ### Runs -/

namespace Execution

/-- What is true of a run between two operations. -/
structure Sound (e : Execution) : Prop extends Stacked e.frames where
  /-- A run without templates has ended by itself or at an exit. -/
  ended : e.frames = [] → e.state = .finished .completed ∨ e.state = .finished (.halted .exit)
  /-- A suspended run stands behind a prompt, on an open line. -/
  suspended : ∀ w, e.state = .suspended w → e.hidden = false ∧ ∃ f ∈ e.frames.head?, f.Asks w
  /-- A run that waits for a template stands behind the instruction that includes it, on an open
  line, and has room for it. -/
  including : ∀ name, e.state = .including name →
    e.hidden = false ∧ e.frames.length < includeLimit ∧ ∃ f ∈ e.frames.head?, f.Calls name

namespace Sound

variable {e : Execution}

theorem frames_ne_nil (h : e.Sound) (hs : ∀ o, e.state ≠ .finished o) : e.frames ≠ [] := by
  intro hf
  rcases h.ended hf with he | he
  · exact hs _ he
  · exact hs _ he

theorem of_running (hs : e.state = .running) (hf : Stacked e.frames) (hn : e.frames ≠ []) :
    e.Sound :=
  ⟨hf, fun h => absurd h hn, by simp [hs], by simp [hs]⟩

theorem of_finished {o : Outcome} (hs : e.state = .finished o) (hf : Stacked e.frames)
    (hn : e.frames = [] → o = .completed ∨ o = .halted .exit) : e.Sound := by
  refine ⟨hf, fun h => ?_, by simp [hs], by simp [hs]⟩
  rcases hn h with rfl | rfl
  · exact .inl hs
  · exact .inr hs

theorem start (t : Template) (charset : Charset) : (Execution.start t charset).Sound := by
  refine of_running rfl ⟨?_, ?_, ?_⟩ (List.cons_ne_nil _ _)
  · exact (by decide : 1 ≤ includeLimit)
  · simp [Execution.start]
  · simp [Execution.start]

theorem finish (h : e.Sound) (hn : e.frames ≠ []) (o : Outcome) : (e.finish o).execution.Sound :=
  of_finished rfl h.toStacked fun hf => absurd hf hn

/-! ### One step

`e` is a sound run at the instruction `i` of `f`. -/

section

variable {f : Frame} {below : List Frame} (h : e.Sound) (hf : e.frames = f :: below)
include h hf

theorem leave (hs : e.state = .running) {o : Outcome} (ho : o = .completed ∨ o = .halted .exit) :
    (e.leave o).execution.Sound := by
  have hb : Stacked below := (hf ▸ h.toStacked).left
  unfold Execution.leave
  rw [hf]
  cases below with
  | nil => exact of_finished rfl hb fun _ => ho
  | cons g rest => exact of_running hs hb (List.cons_ne_nil _ _)

theorem goTo (hs : e.state = .running) {p : Nat} (hp : p ≤ f.template.size) : (e.goTo p).Sound := by
  rw [goTo_of_frames hf]
  exact of_running hs ((hf ▸ h.toStacked).moved hp) (List.cons_ne_nil _ _)

variable {i : Instruction} (hi : f.template.at? f.position = some i)
include hi

theorem next (hs : e.state = .running) (r : Registers) : (e.remember r).next.Sound := by
  rw [next_of_frames (show (e.remember r).frames = f :: below from hf)]
  exact of_running hs ((hf ▸ h.toStacked).next hi) (List.cons_ne_nil _ _)

theorem called (hs : e.state = .running) (hk : i.kind = .includes)
    (hd : e.frames.length < includeLimit) (t : Template) :
    ({ e.next with frames := ⟨t, 0⟩ :: e.next.frames } : Execution).Sound := by
  have hst : Stacked ({ f with position := f.position + 1 } :: below) :=
    (hf ▸ h.toStacked).next hi
  have hc : ({ f with position := f.position + 1 } : Frame).Calls (i.arg 0) :=
    ⟨i, Frame.passed?_next hi, hk, rfl⟩
  rw [hf] at hd
  rw [next_of_frames hf]
  exact of_running hs (hst.entered hc hd t) (List.cons_ne_nil _ _)

theorem asked (ho : e.hidden = false) (hk : i.kind = .includes)
    (hd : e.frames.length < includeLimit) :
    ({ e.next with state := .including (i.arg 0) } : Execution).Sound := by
  rw [hf] at hd
  rw [next_of_frames hf]
  refine ⟨(hf ▸ h.toStacked).next hi, fun hn => absurd hn (List.cons_ne_nil _ _), by simp, ?_⟩
  intro name hname
  cases hname
  exact ⟨ho, hd, _, rfl, i, Frame.passed?_next hi, hk, rfl⟩

theorem waited (ho : e.hidden = false) {p : Prompt} (hk : i.kind = .prompt p) :
    ({ e.next with state := .suspended p.wait } : Execution).Sound := by
  rw [next_of_frames hf]
  refine ⟨(hf ▸ h.toStacked).next hi, fun hn => absurd hn (List.cons_ne_nil _ _), ?_, by simp⟩
  intro w hw
  cases hw
  exact ⟨ho, _, rfl, i, p, Frame.passed?_next hi, hk, rfl⟩

end

/-- A step leaves a run sound. -/
theorem step (h : e.Sound) (hs : e.state = .running) (store : Store) (facts : Facts) :
    (e.step store facts).execution.Sound := by
  have hstep := e.stepsTo_step store facts
  generalize e.step store facts = a at hstep ⊢
  cases hstep with
  | ended hf => exact absurd hf (h.frames_ne_nil (by simp [hs]))
  | left hf ho => exact h.leave hf hs ho
  | passed hf hi r => exact h.next hf hi hs r
  | moved hf _ _ hp =>
    refine h.goTo hf hs ?_
    rcases hp with ⟨-, rfl⟩ | ⟨-, hl⟩
    · exact Nat.zero_le _
    · exact Nat.le_of_lt (label?_lt hl)
  | called hf hi ho hk hd => exact h.called hf hi hs hk hd _
  | asked hf hi ho hk hd => exact h.asked hf hi ho hk hd
  | waited hf hi ho hk => exact h.waited hf hi ho hk
  | halted hf => exact h.finish (hf ▸ List.cons_ne_nil _ _) _
  | lost hf => exact h.finish (hf ▸ List.cons_ne_nil _ _) _

end Sound

/-! ### Operations -/

theorem Sound.proceed {e : Execution} (h : e.Sound) (store : Store) (facts : ChangingFacts)
    (budget made : Nat) : (e.proceed store facts budget made).1.execution.Sound := by
  refine proceed_induction (P := fun e a => e.Sound → a.execution.Sound) (fun _ h => h) ?_ facts
    budget made e h
  intro facts e rest hs hrest h
  exact hrest (h.step hs store facts)

theorem Sound.advance {e : Execution} (h : e.Sound) (store : Store) (facts : Facts)
    (budget : Nat) : (e.advance store facts budget).execution.Sound := h.proceed store facts budget 0

theorem Sound.resume {e : Execution} (h : e.Sound) (hs : ∀ o, e.state ≠ .finished o)
    (response : Option String) : ({ e with response, state := .running } : Execution).Sound :=
  of_running rfl h.toStacked (h.frames_ne_nil hs)

theorem Sound.deliver {e : Execution} (h : e.Sound) (line : String) :
    (e.deliver line).execution.Sound := by
  unfold Execution.deliver
  split
  · rename_i w hw
    split
    · exact h.resume (by simp [hw]) _
    · exact h
  · exact h

theorem Sound.enter {e : Execution} (h : e.Sound) (t : Template) :
    (e.enter t).execution.Sound := by
  unfold Execution.enter
  split
  · rename_i name hname
    obtain ⟨-, hd, f, hf, hc⟩ := h.including name hname
    obtain ⟨below, hf⟩ := List.head?_eq_some_iff.mp hf
    have hst := h.toStacked
    rw [hf] at hst hd
    refine of_running rfl ?_ (List.cons_ne_nil _ _)
    simpa [Advance.quiet, hf] using hst.entered hc hd t
  · exact h

theorem Sound.abort {e : Execution} (h : e.Sound) (error : RunError) :
    (e.abort error).execution.Sound := by
  unfold Execution.abort
  split
  · exact h
  · rename_i hs
    exact h.finish (h.frames_ne_nil hs) _

end Execution

/-- A run with the store and the facts it is advanced with. -/
structure Stage where
  store : Store
  facts : Facts
  execution : Execution

/-- What can be done with a run, and what can happen around it. -/
inductive Operation where
  | advance
  | deliver (line : String)
  | enter (t : Template)
  | abort (error : RunError)
  /-- A source is compiled into the store. -/
  | compile (name source : String)
  /-- The facts become others. -/
  | inform (facts : Facts)

namespace Stage

/-- Does one thing. -/
def operate (s : Stage) : Operation → Stage
  | .advance => { s with execution := (s.execution.advance s.store s.facts stepBudget).execution }
  | .deliver line => { s with execution := (s.execution.deliver line).execution }
  | .enter t => { s with execution := (s.execution.enter t).execution }
  | .abort error => { s with execution := (s.execution.abort error).execution }
  | .compile name source => { s with store := (s.store.compile name source).store }
  | .inform facts => { s with facts }

theorem sound_operate {s : Stage} (h : s.execution.Sound) (o : Operation) :
    (s.operate o).execution.Sound := by
  cases o with
  | advance => exact h.advance _ _ _
  | deliver line => exact h.deliver line
  | enter t => exact h.enter t
  | abort error => exact h.abort error
  | compile name source => exact h
  | inform facts => exact h

/-- **A run is sound whatever is done with it.** From the start of any template, after any
operations in any order. -/
theorem sound_operations (t : Template) (charset : Charset) (store : Store) (facts : Facts)
    (operations : List Operation) :
    (operations.foldl operate ⟨store, facts, .start t charset⟩).execution.Sound := by
  have hall : ∀ s : Stage, s.execution.Sound → (operations.foldl operate s).execution.Sound := by
    induction operations with
    | nil => exact fun s h => h
    | cons o rest ih => exact fun s h => ih (s.operate o) (sound_operate h o)
  exact hall _ (.start t charset)

end Stage

end BulletinBoard
