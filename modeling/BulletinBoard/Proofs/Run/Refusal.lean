/-
# Refused output

What becomes of a run when the line refuses what it sends. The bytes of a stretch of steps are sent
when the stretch is over, and then the run may have ended already. An ended run cannot be aborted,
so its outcome stands and the refusal does not show in it. In every other state the run is aborted
with the text of the refusal (`outcome_of_refusal`).

Key definitions: `Outcome.isOwn`, `Run.spoken`, `Run.refusal?`.
Key theorems: `Execution.endsItself_proceed`, `Run.report_of_refusal`, `Run.outcome_of_refusal`.
-/
import BulletinBoard.Proofs.Run.Stepping
import BulletinBoard.Proofs.Run.Turns

namespace BulletinBoard

open Text Template

/-! ### How a run ends by itself -/

/-- Whether a run may end like this by itself, with nobody to abort it. -/
def Outcome.isOwn : Outcome → Bool
  | .completed | .halted _ | .aborted (.unresolvedLabel _ _) => true
  | .aborted _ => false

namespace Execution

variable {store : Store} {facts : Facts} {e : Execution}

/-- If the run has ended, it has done so by itself. -/
def EndsItself (e : Execution) : Prop := ∀ o, e.state = .finished o → o.isOwn = true

theorem endsItself_of_running (h : e.state = .running) : e.EndsItself := by
  intro o ho
  rw [h] at ho
  cases ho

theorem endsItself_finish {o : Outcome} (h : o.isOwn = true) :
    (e.finish o).execution.EndsItself := by
  intro o' ho
  cases ho
  exact h

theorem endsItself_leave {o : Outcome} (hr : e.state = .running) (h : o.isOwn = true) :
    (e.leave o).execution.EndsItself := by
  rcases e.state_leave o with hs | hs
  · exact endsItself_of_running (hs.trans hr)
  · intro o' ho'
    cases hs.symm.trans ho'
    exact h

/-- A step ends a run in its own ways only. -/
theorem endsItself_step (hr : e.state = .running) :
    (e.step store facts).execution.EndsItself := by
  have hstep := e.stepsTo_step store facts
  generalize e.step store facts = a at hstep ⊢
  cases hstep with
  | ended => exact endsItself_finish rfl
  | left _ ho => exact endsItself_leave hr (by rcases ho with rfl | rfl <;> rfl)
  | passed _ _ r => exact endsItself_of_running ((e.remember r).state_next.trans hr)
  | moved => exact endsItself_of_running ((e.state_goTo _).trans hr)
  | called => exact endsItself_of_running (e.state_next.trans hr)
  | asked => exact fun o ho => by cases ho
  | waited => exact fun o ho => by cases ho
  | halted => exact endsItself_finish rfl
  | lost => exact endsItself_finish rfl

theorem endsItself_proceed (h : e.EndsItself) (facts : ChangingFacts) (budget made : Nat) :
    (e.proceed store facts budget made).1.execution.EndsItself := by
  refine proceed_induction (P := fun e a => e.EndsItself → a.execution.EndsItself)
    (fun _ h => h) ?_ facts budget made e h
  exact fun facts e rest hr hrest _ => hrest (endsItself_step hr)

theorem running_of_bytes_ne_nil {facts : ChangingFacts} {budget made : Nat}
    (h : (e.proceed store facts budget made).1.bytes ≠ []) : e.state = .running := by
  by_cases hr : e.state = .running
  · exact hr
  · rw [proceed_of_ne_running hr] at h
    exact absurd rfl h

end Execution

/-! ### Turns -/

namespace Run

variable {disk : Disk} {facts : ChangingFacts} {r : Run}

/-- How far a turn advances the run before anything is sent. -/
def spoken (facts : ChangingFacts) (r : Run) : Advance :=
  (r.execution.proceed r.store facts stepBudget r.steps).1

theorem speak_eq_utter_spoken (facts : ChangingFacts) (r : Run) :
    r.speak facts stepBudget = (r.counted facts stepBudget).utter (r.spoken facts) := rfl

/-- The text of the error if the line refuses what the run sends in its next turn. -/
def refusal? (facts : ChangingFacts) (r : Run) : Option String :=
  if (r.spoken facts).bytes.isEmpty then none else (r.line.send (r.spoken facts).bytes).2

theorem refused_of_refusal? {text : String} (hw : r.refusal? facts = some text) :
    (r.spoken facts).bytes ≠ [] ∧ (r.line.send (r.spoken facts).bytes).2 = some text := by
  unfold refusal? at hw
  split at hw
  · cases hw
  · rename_i hb
    exact ⟨fun h => hb (h ▸ rfl), hw⟩

theorem utter_of_refused {a : Advance} {text : String} (hb : a.bytes.isEmpty = false)
    (hs : (r.line.send a.bytes).2 = some text) :
    (r.utter a).phase = .over ∧
      (r.utter a).execution = (a.execution.abort (.output text)).execution := by
  rcases hl : r.line.send a.bytes with ⟨line, failed⟩
  rw [hl] at hs
  cases hs
  unfold utter
  dsimp only [take]
  rw [hb, hl]
  exact ⟨rfl, rfl⟩

theorem speak_of_refused {text : String} (hb : (r.spoken facts).bytes.isEmpty = false)
    (hs : (r.line.send (r.spoken facts).bytes).2 = some text) :
    (r.speak facts stepBudget).phase = .over ∧
      (r.speak facts stepBudget).execution =
        ((r.spoken facts).execution.abort (.output text)).execution :=
  utter_of_refused (r := r.counted facts stepBudget) hb hs

theorem turn_of_refusal {text : String} (hg : r.phase = .going)
    (hw : r.refusal? facts = some text) (hangupFirst : Bool) :
    (r.turn disk facts hangupFirst).phase = .over ∧
      (r.turn disk facts hangupFirst).execution =
        ((r.spoken facts).execution.abort (.output text)).execution := by
  obtain ⟨hb, hs⟩ := refused_of_refusal? hw
  obtain ⟨hp, he⟩ := speak_of_refused (List.isEmpty_eq_false_iff.mpr hb) hs
  rw [turn_of_spoken hg (by rw [hp]; decide)]
  exact ⟨hp, he⟩

theorem endsItself_spoken {text : String} (hw : r.refusal? facts = some text) :
    (r.spoken facts).execution.EndsItself := by
  have hr := Execution.running_of_bytes_ne_nil (refused_of_refusal? hw).1
  exact Execution.endsItself_proceed (Execution.endsItself_of_running hr) facts stepBudget r.steps

/-- What is reported after a refusal, by how the steps before it left the run. -/
theorem report_of_refusal {text : String} (hg : r.phase = .going)
    (hw : r.refusal? facts = some text) (hangupFirst : Bool) :
    ((r.turn disk facts hangupFirst).report.outcome = .aborted (.output text) ↔
      ∀ o, (r.spoken facts).execution.state ≠ .finished o) ∧
    ∀ o, (r.spoken facts).execution.state = .finished o →
      (r.turn disk facts hangupFirst).report.outcome = o := by
  have hown := endsItself_spoken hw
  unfold report
  rw [(turn_of_refusal hg hw hangupFirst).2]
  generalize (r.spoken facts).execution = e at hown
  unfold Execution.abort
  split
  · rename_i o ho
    have hreport : (Advance.quiet e).execution.outcome? = some o := by
      unfold Execution.outcome?
      rw [show (Advance.quiet e).execution.state = .finished o from ho]
    dsimp only
    rw [hreport, Option.getD_some]
    refine ⟨⟨fun h => ?_, fun h => absurd ho (h o)⟩, fun o' ho' => ?_⟩
    · subst h
      cases hown _ ho
    · rw [ho] at ho'
      cases ho'
      rfl
  · rename_i hne
    exact ⟨⟨fun _ o ho => hne o ho, fun _ => rfl⟩, fun o ho => absurd ho (hne o)⟩

end Run

/-- **A refusal aborts a run that has not ended, and is not told by one that has.** When the line
refuses what turn `k` sends, the run is over in any more turns than `k`. It reports the refusal
just if the steps of that turn did not end it, and its own outcome if they did. -/
theorem Run.outcome_of_refusal {disk : Disk} {facts : ChangingFacts} {charset : Charset}
    {store : Store} {line : Line} {name text : String} {races : Nat → Bool} {begun : Run} {k turns : Nat}
    (hb : Run.begin disk charset store line name = .inl begun)
    (hg : (begun.drive disk facts races k).phase = .going)
    (hw : (begun.drive disk facts races k).refusal? facts = some text) (hk : k < turns) :
    ∃ c, conduct disk facts races turns charset store line name = some c ∧
      (c.report.outcome = .aborted (.output text) ↔
        ∀ o, ((begun.drive disk facts races k).spoken facts).execution.state ≠ .finished o) ∧
      ∀ o, ((begun.drive disk facts races k).spoken facts).execution.state = .finished o →
        c.report.outcome = o := by
  obtain ⟨more, rfl⟩ := Nat.exists_eq_add_of_lt hk
  have hover : ((begun.drive disk facts races k).turn disk facts (races (0 + k))).phase = .over :=
    (turn_of_refusal hg hw _).1
  have hd : begun.drive disk facts races (k + more + 1) =
      (begun.drive disk facts races k).turn disk facts (races (0 + k)) := by
    rw [Nat.add_assoc, drive_add, drive_succ hg, drive_of_not_going]
    rw [hover]
    decide
  refine ⟨_, conduct_of_over hb (hd ▸ hover), ?_⟩
  rw [hd]
  exact report_of_refusal hg hw (races (0 + k))

/-! ### A caller who takes one byte -/

/-- A line on which one byte can be sent. -/
def narrowLine : Line := ⟨[], .closed, some 1, none, "scripted write failure", [], .never⟩

/-- A text, a question, and another text. -/
def question : Template :=
  .of "t" "hel[readln]lo" [.literal "hel", ⟨.prompt .readLine, [], "readln"⟩, .literal "lo"]

/-- Its run on that line, before the first turn. -/
def questioning : Run :=
  ⟨.start question .utf8, ⟨[("t", question)], none⟩, narrowLine, .empty, .going, 0⟩

/-- The text before the question is refused, and the run that would wait next is aborted. -/
theorem Run.outcome_of_refusal_questioning :
    Run.begin ⟨.empty, []⟩ .utf8 questioning.store narrowLine "t" = .inl questioning ∧
      questioning.phase = .going ∧
      questioning.refusal? Facts.empty = some "scripted write failure" ∧
      ∃ c, conduct ⟨.empty, []⟩ Facts.empty (fun _ => false) 1 .utf8 questioning.store narrowLine
          "t" = some c ∧
        c.report.outcome = .aborted (.output "scripted write failure") := by
  have hb : Run.begin ⟨.empty, []⟩ .utf8 questioning.store narrowLine "t" = .inl questioning := rfl
  have hg : (questioning.drive ⟨.empty, []⟩ Facts.empty (fun _ => false) 0).phase = .going := rfl
  have hw : questioning.refusal? Facts.empty = some "scripted write failure" := by decide
  have hstate : (questioning.spoken Facts.empty).execution.state = .suspended .line := by decide
  obtain ⟨c, hc, hiff, -⟩ := Run.outcome_of_refusal hb hg hw Nat.one_pos
  refine ⟨hb, hg, hw, c, hc, hiff.mpr fun o ho => ?_⟩
  cases hstate.symm.trans ho

/-- A text is refused, and the run that ended with it counts as completed all the same. -/
theorem Run.completed_of_refused_hello :
    ∃ begun, Run.begin ⟨.empty, []⟩ .utf8 ((Store.empty none).compile "t" "hello").store narrowLine
        "t" = .inl begun ∧
      begun.phase = .going ∧ begun.refusal? Facts.empty = some "scripted write failure" ∧
      (conduct ⟨.empty, []⟩ Facts.empty (fun _ => false) 1 .utf8
        ((Store.empty none).compile "t" "hello").store narrowLine "t").map Conducted.report =
          some ⟨.completed, none⟩ := by
  refine ⟨_, rfl, rfl, ?_, ?_⟩
  · decide
  · decide

end BulletinBoard
