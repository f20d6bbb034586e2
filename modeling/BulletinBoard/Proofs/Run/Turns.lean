/-
# Turns

A run gets its turns one after another, so many turns are some turns and then the others, and a run
that is over gets none.

Key definitions: `Run.counted`.
Key theorems: `Run.drive_add`, `Run.over_of_conducted?`, `Run.opening_of_ok`,
`Run.opening_of_error`, `conduct_of_over`.
-/
import BulletinBoard.Run.Conduct

namespace BulletinBoard

namespace Run

variable {disk : Disk} {facts : ChangingFacts} {r : Run}

/-- The run with the steps counted that a turn of so many makes. -/
def counted (facts : ChangingFacts) (budget : Nat) (r : Run) : Run :=
  { r with steps := (r.execution.proceed r.store facts budget r.steps).2 }

theorem speak_eq (facts : ChangingFacts) (budget : Nat) (r : Run) : r.speak facts budget =
    (r.counted facts budget).utter (r.execution.proceed r.store facts budget r.steps).1 := rfl

theorem turn_of_going (h : r.phase = .going) (hs : (r.speak facts stepBudget).phase = .going)
    (hangupFirst : Bool) :
    r.turn disk facts hangupFirst = (r.speak facts stepBudget).respond disk hangupFirst := by
  unfold turn
  simp only [h, hs]

theorem turn_of_spoken (h : r.phase = .going) (hs : (r.speak facts stepBudget).phase ≠ .going)
    (hangupFirst : Bool) : r.turn disk facts hangupFirst = r.speak facts stepBudget := by
  unfold turn
  simp only [h]

theorem turn_of_not_going (h : r.phase ≠ .going) (hangupFirst : Bool) :
    r.turn disk facts hangupFirst = r := by
  unfold turn
  split
  · contradiction
  · rfl

theorem drive_of_not_going (h : r.phase ≠ .going) (races : Nat → Bool) (turns : Nat) :
    r.drive disk facts races turns = r := by
  cases turns with
  | zero => rfl
  | succ turns =>
    unfold drive
    split
    · contradiction
    · rfl

theorem drive_succ (h : r.phase = .going) (races : Nat → Bool) (turns : Nat) :
    r.drive disk facts races (turns + 1) =
      (r.turn disk facts (races 0)).drive disk facts (fun n => races (n + 1)) turns := by
  rw [drive, h]

/-- So many turns and some more are the more turns after so many. -/
theorem drive_add (races : Nat → Bool) (m n : Nat) (r : Run) :
    r.drive disk facts races (m + n) =
      (r.drive disk facts races m).drive disk facts (fun k => races (k + m)) n := by
  induction m generalizing r races with
  | zero => rw [Nat.zero_add]; rfl
  | succ m ih =>
    by_cases h : r.phase = .going
    · rw [show m + 1 + n = m + n + 1 by omega, drive_succ h, drive_succ h, ih]
      rfl
    · rw [drive_of_not_going h, drive_of_not_going h, drive_of_not_going h]

/-- What a run leaves behind is what it has when it is over. -/
theorem over_of_conducted? {c : Conducted} (h : r.conducted? = some c) :
    r.phase = .over ∧ c = ⟨r.report, r.store, r.line, r.log, r.steps⟩ := by
  unfold conducted? at h
  split at h
  · rename_i hp
    cases h
    exact ⟨hp, rfl⟩
  · cases h

theorem conducted?_of_over (h : r.phase = .over) :
    r.conducted? = some ⟨r.report, r.store, r.line, r.log, r.steps⟩ := by
  unfold conducted?
  rw [h]

theorem opening_of_ok {charset : Text.Charset} {line : Line} {name : String}
    {reply : Store.Reply RunError} {t : Template}
    (h : reply.result = .ok t) : opening charset line name reply =
      .inl ⟨.start t charset, reply.store, line, reply.log, .going, 0⟩ := by
  unfold opening
  rw [h]

theorem opening_of_error {charset : Text.Charset} {line : Line} {name : String}
    {reply : Store.Reply RunError} {e : RunError}
    (h : reply.result = .error e) : opening charset line name reply =
      .inr ⟨⟨.aborted e, none⟩, reply.store, line,
        reply.log ++ ⟨[.cannotRun name e], Execution.tallyOf (.aborted e)⟩, 0⟩ := by
  unfold opening
  rw [h]

end Run

/-- A run that is over within so many turns is reported. -/
theorem conduct_of_over {disk : Disk} {facts : ChangingFacts} {charset : Text.Charset}
    {store : Store} {line : Line} {name : String} {races : Nat → Bool} {turns : Nat} {begun : Run}
    (hb : Run.begin disk charset store line name = .inl begun)
    (h : (begun.drive disk facts races turns).phase = .over) :
    conduct disk facts races turns charset store line name =
      some ⟨(begun.drive disk facts races turns).report,
        (begun.drive disk facts races turns).store, (begun.drive disk facts races turns).line,
        (begun.drive disk facts races turns).log, (begun.drive disk facts races turns).steps⟩ := by
  unfold conduct
  rw [hb]
  exact Run.conducted?_of_over h

end BulletinBoard
