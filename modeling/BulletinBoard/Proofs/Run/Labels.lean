/-
# Labels that are missing

By itself a run aborts for one reason only: it goes to a label that its template does not have. Then
the error tells the truth about the place where the run stands (`Execution.Lost`). So a run whose
templates declare the labels they go to is never aborted but by whoever conducts it.

Key definitions: `Template.Declares`, `Template.WellLabelled`, `Execution.Lost`.
Key theorems: `Execution.truthful_advance`, `Stage.aborted_of_operate`, `Stage.aborted_by_caller`.
-/
import BulletinBoard.Proofs.Run.Supply

namespace BulletinBoard

open Text Template

/-! ### Declared labels -/

namespace Template

/-- Some instruction of the template marks a label of this name. -/
def Declares (t : Template) (label : String) : Prop :=
  ∃ i ∈ t.instructions, i.kind = .label ∧ i.word = label

/-- The template declares every label it goes to. -/
def WellLabelled (t : Template) : Prop := ∀ i ∈ t.instructions, i.Branches → t.Declares (i.arg 0)

instance (t : Template) (label : String) : Decidable (t.Declares label) :=
  inferInstanceAs (Decidable (∃ i ∈ t.instructions, _))

instance : DecidablePred WellLabelled := fun t =>
  inferInstanceAs (Decidable (∀ i ∈ t.instructions, i.Branches → t.Declares (i.arg 0)))

theorem label?_eq_none_iff {t : Template} {label : String} :
    t.label? label = none ↔ ¬ t.Declares label := by
  rw [label?_eq_lastMark?, lastMark?_eq_none_iff]
  simp [Declares]

end Template

/-! ### One run -/

namespace Execution

/-- The run stands at an instruction that goes to a label its template does not declare, and the
error is about this label and this template. -/
def Lost (e : Execution) (error : RunError) : Prop :=
  ∃ f ∈ e.frames.head?, ∃ i, f.template.at? f.position = some i ∧ i.Branches ∧
    ¬ f.template.Declares (i.arg 0) ∧ error = .unresolvedLabel f.template.name (i.arg 0)

variable {store : Store} {facts : Facts} {e : Execution} {error : RunError}

theorem not_lost_of_wellLabelled (h : e.Runs WellLabelled) : ¬ e.Lost error := by
  rintro ⟨f, hf, i, hi, hb, hmissing, -⟩
  have hwell : f.template.WellLabelled := h f (List.mem_of_mem_head? hf)
  exact hmissing (hwell i (List.mem_of_getElem? hi) hb)

theorem leave_ne_aborted {o : Outcome} (hr : e.state = .running)
    (ho : o = .completed ∨ o = .halted .exit) :
    (e.leave o).execution.state ≠ .finished (.aborted error) := by
  intro h
  rcases e.state_leave o with hs | hs
  · cases (hs.trans hr).symm.trans h
  · rcases ho with rfl | rfl <;> cases hs.symm.trans h

/-- If the run has been aborted, it is lost. -/
def Truthful (e : Execution) : Prop :=
  ∀ error, e.state = .finished (.aborted error) → e.Lost error

theorem truthful_of_not_finished (h : ∀ o, e.state ≠ .finished o) : e.Truthful :=
  fun _ he => absurd he (h _)

/-- A step aborts a run only where it is lost. -/
theorem truthful_step (hr : e.state = .running) : (e.step store facts).execution.Truthful := by
  have hstep := e.stepsTo_step store facts
  generalize e.step store facts = a at hstep ⊢
  intro error h
  cases hstep with
  | ended => cases h
  | left _ ho => exact absurd h (leave_ne_aborted hr ho)
  | passed _ _ r => cases ((e.remember r).state_next.trans hr).symm.trans h
  | moved => cases ((e.state_goTo _).trans hr).symm.trans h
  | called => cases (e.state_next.trans hr).symm.trans h
  | asked => cases h
  | waited => cases h
  | halted => cases h
  | lost hf hi _ hb hl =>
    cases h
    exact ⟨_, List.head?_eq_some_iff.mpr ⟨_, hf⟩, _, hi, hb, label?_eq_none_iff.mp hl, rfl⟩

theorem truthful_advance (h : e.Truthful) (budget : Nat) :
    (e.advance store facts budget).execution.Truthful := by
  induction budget generalizing e with
  | zero => exact h
  | succ budget ih =>
    by_cases hr : e.state = .running
    · rw [advance_succ hr]
      exact ih (truthful_step hr)
    · rw [advance_of_ne_running hr]
      exact h

theorem finished_of_deliver {line : String} {o : Outcome}
    (h : (e.deliver line).execution.state = .finished o) : e.state = .finished o := by
  unfold deliver at h
  split at h
  · split at h
    · cases h
    · exact h
  · exact h

theorem finished_of_enter {t : Template} {o : Outcome}
    (h : (e.enter t).execution.state = .finished o) : e.state = .finished o := by
  unfold enter at h
  split at h
  · cases h
  · exact h

/-- A run that stands ended when it is aborted has ended before, or is aborted now. -/
theorem finished_of_abort {o : Outcome} (h : (e.abort error).execution.state = .finished o) :
    e.state = .finished o ∨ o = .aborted error := by
  unfold abort at h
  split at h
  · exact .inl h
  · cases h
    exact .inr rfl

end Execution

/-! ### Operations -/

namespace Stage

variable {s : Stage} {error : RunError}

/-- A run with well labelled templates that stands aborted after an operation stood so before, or
the operation was to abort it. -/
theorem aborted_of_operate (h : s.Supplied WellLabelled) {o : Operation}
    (ha : (s.operate o).execution.state = .finished (.aborted error)) :
    s.execution.state = .finished (.aborted error) ∨ o = .abort error := by
  cases o with
  | advance =>
    by_cases hf : ∃ o, s.execution.state = .finished o
    · obtain ⟨o, ho⟩ := hf
      have hstop : s.execution.state ≠ .running := by simp [ho]
      unfold operate at ha
      rw [Execution.advance_of_ne_running hstop] at ha
      exact .inl ha
    · have hlost := Execution.truthful_advance
        (Execution.truthful_of_not_finished (not_exists.mp hf)) stepBudget error ha
      have hafter : (s.operate .advance).Supplied WellLabelled := h.operate (o := .advance) trivial
      exact absurd hlost (Execution.not_lost_of_wellLabelled hafter.execution)
  | deliver line => exact .inl (Execution.finished_of_deliver ha)
  | enter t => exact .inl (Execution.finished_of_enter ha)
  | abort e =>
    rcases Execution.finished_of_abort ha with hs | he
    · exact .inl hs
    · cases he
      exact .inr rfl
  | compile name source => exact .inl ha
  | inform facts => exact .inl ha

theorem aborted_of_operations (h : s.Supplied WellLabelled) {operations : List Operation}
    (ho : ∀ o ∈ operations, o.Brings WellLabelled)
    (ha : (operations.foldl operate s).execution.state = .finished (.aborted error)) :
    s.execution.state = .finished (.aborted error) ∨ .abort error ∈ operations := by
  induction operations generalizing s with
  | nil => exact .inl ha
  | cons o rest ih =>
    obtain ⟨hfirst, hrest⟩ := List.forall_mem_cons.mp ho
    rcases ih (h.operate hfirst) hrest ha with hs | hm
    · rcases aborted_of_operate h hs with hs | rfl
      · exact .inl hs
      · exact .inr List.mem_cons_self
    · exact .inr (List.mem_cons_of_mem _ hm)

/-- **Well labelled templates do not abort, and no abort is a lie.** If every template that can get
into a run declares the labels it goes to, then after any operations the run is aborted only with an
error that it was aborted with by an operation. Whatever the templates, where advancing a run aborts
it, the run stands at an instruction of its innermost template that goes to a label which the
template does not declare, and the error names that template and that label. -/
theorem aborted_by_caller :
    (∀ (t : Template) (charset : Charset) (store : Store) (facts : Facts)
      (operations : List Operation) (error : RunError),
      t.WellLabelled → store.Holds WellLabelled → (∀ o ∈ operations, o.Brings WellLabelled) →
      (operations.foldl operate ⟨store, facts, .start t charset⟩).execution.state =
        .finished (.aborted error) →
      .abort error ∈ operations) ∧
    ∀ (e : Execution) (store : Store) (facts : Facts) (budget : Nat) (error : RunError),
      (∀ o, e.state ≠ .finished o) →
      (e.advance store facts budget).execution.state = .finished (.aborted error) →
      (e.advance store facts budget).execution.Lost error := by
  constructor
  · intro t charset store facts operations error ht hs ho ha
    have hsupplied : (⟨store, facts, .start t charset⟩ : Stage).Supplied WellLabelled :=
      ⟨hs, .start ht charset⟩
    rcases aborted_of_operations hsupplied ho ha with hstart | hm
    · cases hstart
    · exact hm
  · intro e store facts budget error hn
    exact Execution.truthful_advance (Execution.truthful_of_not_finished hn) budget error

/-! ### A template that asks again -/

/-- It declares one label before and one behind the instruction that goes there. -/
def askingAgain : Template :=
  .of "ask" "[/again]key?[menu][goto more]no[label more][goto again]"
    [.mark "again", .literal "key?", ⟨.prompt .menu, [], "menu"⟩, ⟨.goto, ["more"], "goto"⟩,
      .literal "no", .mark "more", ⟨.goto, ["again"], "goto"⟩]

/-- It goes to a label that it does not have. -/
def goingNowhere : Template :=
  .of "t" "hi[goto nowhere]" [.literal "hi", ⟨.goto, ["nowhere"], "goto"⟩]

/-- The one is aborted by hand while it waits, the other by itself. -/
theorem aborted_by_caller_askingAgain :
    Template.compile "ask" askingAgain.source = .ok askingAgain ∧ askingAgain.WellLabelled ∧
    ([.advance, .deliver "x", .advance, .abort .cancelled].foldl operate
        ⟨.empty none, Facts.empty, .start askingAgain .utf8⟩).execution.state =
      .finished (.aborted .cancelled) ∧
    Operation.abort .cancelled ∈ [.advance, .deliver "x", .advance, .abort .cancelled] ∧
    ((Execution.start goingNowhere .utf8).advance (.empty none) Facts.empty stepBudget).execution.Lost
      (.unresolvedLabel "t" "nowhere") := by
  have hcompiles : Template.compile "ask" askingAgain.source = .ok askingAgain := rfl
  have hwell : askingAgain.WellLabelled := by decide
  have hstore : (Store.empty none).Holds WellLabelled := fun _ _ h => by cases h
  have hbring : ∀ o ∈ [.advance, .deliver "x", .advance, .abort .cancelled],
      Operation.Brings WellLabelled o := by
    simp [Operation.Brings]
  have hstate : ([.advance, .deliver "x", .advance, .abort .cancelled].foldl operate
      ⟨.empty none, Facts.empty, .start askingAgain .utf8⟩).execution.state =
        .finished (.aborted .cancelled) := by decide
  have hlost : ((Execution.start goingNowhere .utf8).advance (.empty none) Facts.empty
      stepBudget).execution.state = .finished (.aborted (.unresolvedLabel "t" "nowhere")) := by
    decide
  exact ⟨hcompiles, hwell, hstate,
    aborted_by_caller.1 askingAgain .utf8 (.empty none) Facts.empty _ _ hwell hstore hbring hstate,
    aborted_by_caller.2 (.start goingNowhere .utf8) (.empty none) Facts.empty stepBudget _
      (fun _ h => by cases h) hlost⟩

end Stage

end BulletinBoard
