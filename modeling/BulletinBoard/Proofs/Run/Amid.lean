/-
# A run amid others

Runs share the store, and what one loads is there for the others. So between any two things a run
does with the store, others may have changed it: before each step, before the run looks for a
template, and between looking in vain and loading. Here a run is conducted while others do at each
of these places what they like.

A run nobody disturbs is the run as it is conducted alone (`conductAmid_undisturbed`).

Key definitions: `Gap`, `Others`, `Execution.proceedAmid`, `Store.getOrLoadAmid`, `Run.turnAmid`,
`conductAmid`, `Run.countedAmid`.
Key theorems: `conductAmid_undisturbed`.
-/
import BulletinBoard.Proofs.Run.Stepping
import BulletinBoard.Proofs.Run.Turns

namespace BulletinBoard

open Text Template

/-- Where in a turn others may change the store. -/
inductive Gap where
  /-- Before a step that so many may follow. -/
  | step (left : Nat)
  /-- Before a template is looked for. -/
  | lookup
  /-- Before a template that was not found is loaded. -/
  | load
  deriving DecidableEq, Repr

/-- What others do to the store in the gaps of a turn. -/
abbrev Others := Gap → Store → Store

/-- Nothing is done to the store. -/
def undisturbed : Others := fun _ s => s

/-! ### Steps and templates -/

/-- Makes at most `budget` steps while others change the store. `made` steps were made before; how
many were made then is given too, with the store behind them. -/
def Execution.proceedAmid (facts : ChangingFacts) (others : Others) :
    Nat → Nat → Store → Execution → Advance × Nat × Store
  | 0, made, s, e => (.quiet e, made, s)
  | budget + 1, made, s, e =>
    match e.state with
    | .running =>
      let s := others (.step budget) s
      let first := e.step s (facts made)
      let (rest, made, s) := proceedAmid facts others budget (made + 1) s first.execution
      (first.andThen rest, made, s)
    | _ => (.quiet e, made, s)

/-- The template of a name, looked for and loaded while others change the store. -/
def Store.getOrLoadAmid (disk : Disk) (others : Others) (s : Store) (name : String) :
    Reply RunError :=
  let s := others .lookup s
  match s.lookup? name with
  | some t => ⟨s, .ok t, .empty⟩
  | none => (others .load s).loadMissing disk name

/-! ### Turns -/

namespace Run

/-- Advances the run and sends what it emits. -/
def speakAmid (facts : ChangingFacts) (others : Others) (budget : Nat) (r : Run) : Run :=
  let (a, steps, store) := r.execution.proceedAmid facts others budget r.steps r.store
  { r with steps, store }.utter a

/-- Gives the run what it needs after it was advanced. -/
def respondAmid (disk : Disk) (hangupFirst : Bool) (others : Others) (r : Run) : Run :=
  match r.execution.state with
  | .including name => r.receive (r.store.getOrLoadAmid disk others name)
  | _ => r.respond disk hangupFirst

/-- One turn. -/
def turnAmid (disk : Disk) (facts : ChangingFacts) (hangupFirst : Bool) (others : Others)
    (r : Run) : Run :=
  match r.phase with
  | .going =>
    let spoken := r.speakAmid facts others stepBudget
    match spoken.phase with
    | .going => spoken.respondAmid disk hangupFirst others
    | _ => spoken
  | _ => r

/-- At most so many turns. `others` says turn by turn what others do to the store. -/
def driveAmid (disk : Disk) (facts : ChangingFacts) :
    (Nat → Bool) → (Nat → Others) → Nat → Run → Run
  | _, _, 0, r => r
  | races, others, turns + 1, r =>
    match r.phase with
    | .going =>
      driveAmid disk facts (fun n => races (n + 1)) (fun n => others (n + 1)) turns
        (r.turnAmid disk facts (races 0) (others 0))
    | _ => r

end Run

/-- Runs a template against a line while others change the store, in at most so many turns. There
is no answer if the run is not over by then. `others 0` is what they do before the first turn. -/
def conductAmid (disk : Disk) (facts : ChangingFacts) (races : Nat → Bool) (others : Nat → Others)
    (turns : Nat) (charset : Charset) (store : Store) (line : Line) (name : String) :
    Option Conducted :=
  match Run.opening charset line name (store.getOrLoadAmid disk (others 0) name) with
  | .inl r => (r.driveAmid disk facts races (fun n => others (n + 1)) turns).conducted?
  | .inr c => some c

/-- The store behind at most so many turns, whether the run is over by then or not. -/
def storeAmid (disk : Disk) (facts : ChangingFacts) (races : Nat → Bool) (others : Nat → Others)
    (turns : Nat) (charset : Charset) (store : Store) (line : Line) (name : String) : Store :=
  match Run.opening charset line name (store.getOrLoadAmid disk (others 0) name) with
  | .inl r => (r.driveAmid disk facts races (fun n => others (n + 1)) turns).store
  | .inr c => c.store

/-! ### Unfolding -/

namespace Execution

variable {facts : ChangingFacts} {others : Others} {e : Execution}

theorem proceedAmid_of_ne_running (h : e.state ≠ .running) (budget made : Nat) (s : Store) :
    e.proceedAmid facts others budget made s = (.quiet e, made, s) := by
  cases budget with
  | zero => rfl
  | succ budget =>
    unfold proceedAmid
    split
    · contradiction
    · rfl

theorem proceedAmid_succ (h : e.state = .running) (budget made : Nat) (s : Store) :
    e.proceedAmid facts others (budget + 1) made s =
      let first := e.step (others (.step budget) s) (facts made)
      let rest := first.execution.proceedAmid facts others budget (made + 1)
        (others (.step budget) s)
      (first.andThen rest.1, rest.2) := by
  rw [proceedAmid, h]

end Execution

namespace Run

variable {disk : Disk} {facts : ChangingFacts} {r : Run}

/-- The run with the steps counted that a turn of so many makes, and the store behind them. -/
def countedAmid (facts : ChangingFacts) (others : Others) (budget : Nat) (r : Run) : Run :=
  { r with
    steps := (r.execution.proceedAmid facts others budget r.steps r.store).2.1
    store := (r.execution.proceedAmid facts others budget r.steps r.store).2.2 }

theorem speakAmid_eq (facts : ChangingFacts) (others : Others) (budget : Nat) (r : Run) :
    r.speakAmid facts others budget = (r.countedAmid facts others budget).utter
      (r.execution.proceedAmid facts others budget r.steps r.store).1 := rfl

theorem turnAmid_of_going {others : Others} (h : r.phase = .going)
    (hs : (r.speakAmid facts others stepBudget).phase = .going) (hangupFirst : Bool) :
    r.turnAmid disk facts hangupFirst others =
      (r.speakAmid facts others stepBudget).respondAmid disk hangupFirst others := by
  unfold turnAmid
  simp only [h, hs]

theorem turnAmid_of_spoken {others : Others} (h : r.phase = .going)
    (hs : (r.speakAmid facts others stepBudget).phase ≠ .going) (hangupFirst : Bool) :
    r.turnAmid disk facts hangupFirst others = r.speakAmid facts others stepBudget := by
  unfold turnAmid
  simp only [h]

theorem turnAmid_of_not_going (h : r.phase ≠ .going) (hangupFirst : Bool) (others : Others) :
    r.turnAmid disk facts hangupFirst others = r := by
  unfold turnAmid
  split
  · contradiction
  · rfl

theorem driveAmid_of_not_going (h : r.phase ≠ .going) (races : Nat → Bool) (others : Nat → Others)
    (turns : Nat) : r.driveAmid disk facts races others turns = r := by
  cases turns with
  | zero => rfl
  | succ turns =>
    unfold driveAmid
    split
    · contradiction
    · rfl

theorem driveAmid_succ (h : r.phase = .going) (races : Nat → Bool) (others : Nat → Others)
    (turns : Nat) :
    r.driveAmid disk facts races others (turns + 1) =
      (r.turnAmid disk facts (races 0) (others 0)).driveAmid disk facts (fun n => races (n + 1))
        (fun n => others (n + 1)) turns := by
  rw [driveAmid, h]

end Run

theorem store_of_conductAmid {disk : Disk} {facts : ChangingFacts} {races : Nat → Bool}
    {others : Nat → Others} {turns : Nat} {charset : Charset} {store : Store} {line : Line}
    {name : String} {c : Conducted}
    (h : conductAmid disk facts races others turns charset store line name = some c) :
    c.store = storeAmid disk facts races others turns charset store line name := by
  unfold conductAmid at h
  unfold storeAmid
  cases ho : Run.opening charset line name (store.getOrLoadAmid disk (others 0) name) with
  | inl r =>
    rw [ho] at h
    rw [(Run.over_of_conducted? h).2]
  | inr d =>
    rw [ho] at h
    cases h
    rfl

/-! ### A run nobody disturbs -/

theorem Execution.proceedAmid_undisturbed (facts : ChangingFacts) (budget made : Nat) (s : Store)
    (e : Execution) :
    e.proceedAmid facts undisturbed budget made s =
      ((e.proceed s facts budget made).1, (e.proceed s facts budget made).2, s) := by
  induction budget generalizing made e with
  | zero => rfl
  | succ budget ih =>
    by_cases h : e.state = .running
    · rw [proceedAmid_succ h, proceed_succ h]
      dsimp only [undisturbed]
      rw [ih]
    · rw [proceedAmid_of_ne_running h, proceed_of_ne_running h]

namespace Run

theorem respondAmid_undisturbed (disk : Disk) (hangupFirst : Bool) (r : Run) :
    r.respondAmid disk hangupFirst undisturbed = r.respond disk hangupFirst := by
  unfold respondAmid
  split
  · rename_i name h
    unfold respond
    rw [h]
    rfl
  · rfl

theorem turnAmid_undisturbed (disk : Disk) (facts : ChangingFacts) (hangupFirst : Bool) (r : Run) :
    r.turnAmid disk facts hangupFirst undisturbed = r.turn disk facts hangupFirst := by
  have hs : r.speakAmid facts undisturbed stepBudget = r.speak facts stepBudget := by
    unfold speakAmid speak
    rw [Execution.proceedAmid_undisturbed]
  by_cases hg : r.phase = .going
  · by_cases hp : (r.speak facts stepBudget).phase = .going
    · rw [turnAmid_of_going hg (hs ▸ hp), turn_of_going hg hp, hs, respondAmid_undisturbed]
    · rw [turnAmid_of_spoken hg (hs ▸ hp), turn_of_spoken hg hp, hs]
  · rw [turnAmid_of_not_going hg, turn_of_not_going hg]

theorem driveAmid_undisturbed (disk : Disk) (facts : ChangingFacts) (races : Nat → Bool)
    (turns : Nat) (r : Run) :
    r.driveAmid disk facts races (fun _ => undisturbed) turns = r.drive disk facts races turns := by
  induction turns generalizing races r with
  | zero => rfl
  | succ turns ih =>
    by_cases h : r.phase = .going
    · rw [driveAmid_succ h, drive_succ h, turnAmid_undisturbed]
      exact ih _ _
    · rw [driveAmid_of_not_going h, drive_of_not_going h]

end Run

/-- **A run nobody disturbs is conducted as if it were alone.** -/
theorem conductAmid_undisturbed (disk : Disk) (facts : ChangingFacts) (races : Nat → Bool)
    (turns : Nat) (charset : Charset) (store : Store) (line : Line) (name : String) :
    conductAmid disk facts races (fun _ => undisturbed) turns charset store line name =
      conduct disk facts races turns charset store line name := by
  unfold conductAmid conduct
  simp only [Run.driveAmid_undisturbed]
  rfl

end BulletinBoard
