/-
# The events of a conducted run

A run that is conducted meets one event after another: the steps of a turn, each in the store as
others have left it by then, an abort where what the steps sent is refused, and then what the run
needs: a line that was heard, a template that was found, or an abort. Its chronicle lists them in
order, and the run is what these events make of it (`Run.execution_driveAmid`). Between any two of
them is a moment of the run, so what is true along the chronicle is true at every moment.

Nothing but lines is delivered (`Run.isRead_of_mem_chronicle`).

Key definitions: `Others.circumstances`, `Line.Heard.events`, `Execution.Event.IsRead`,
`Run.chronicle`.
Key theorems: `Execution.Sound.meets`, `Run.execution_driveAmid`, `Run.isRead_of_mem_chronicle`.
-/
import BulletinBoard.Proofs.Run.Amid
import BulletinBoard.Proofs.Run.Events
import BulletinBoard.Proofs.Run.Hangup
import BulletinBoard.Proofs.Run.Transcript
import BulletinBoard.Proofs.Text.Lines

namespace BulletinBoard

open Text Template

/-! ### Steps amid others -/

/-- The circumstances of at most so many steps while others change the store. `made` steps were made
before. -/
def Others.circumstances (others : Others) (facts : ChangingFacts) :
    Nat → Nat → Store → List Circumstances
  | 0, _, _ => []
  | budget + 1, made, s =>
    ⟨others (.step budget) s, facts made⟩ ::
      circumstances others facts budget (made + 1) (others (.step budget) s)

namespace Execution

variable {e : Execution}

theorem makes_of_ne_running (h : e.state ≠ .running) (around : List Circumstances) :
    e.makes around = .quiet e := by
  induction around with
  | nil => rfl
  | cons first rest ih =>
    show (e.meet (.step first)).andThen _ = _
    rw [show e.meet (.step first) = .quiet e from advance_of_ne_running h 1,
      Advance.quiet_andThen]
    exact ih

/-- Advancing amid others is making so many steps. -/
theorem proceedAmid_eq_makes (facts : ChangingFacts) (others : Others) (budget made : Nat)
    (s : Store) (e : Execution) :
    (e.proceedAmid facts others budget made s).1 =
      e.makes (others.circumstances facts budget made s) := by
  induction budget generalizing made e s with
  | zero => rfl
  | succ budget ih =>
    by_cases h : e.state = .running
    · rw [proceedAmid_succ h, Others.circumstances, makes_cons h, ← ih]
    · rw [proceedAmid_of_ne_running h, makes_of_ne_running h]

/-- What an event delivers, if it delivers something, is a line. -/
def Event.IsRead : Event → Prop
  | .deliver line => ∃ bytes, IsLine bytes ∧ line = Utf8.decodeLossy bytes
  | _ => True

theorem Sound.meet (h : e.Sound) (x : Event) : (e.meet x).execution.Sound := by
  cases x with
  | step around => exact h.advance _ _ _
  | deliver line => exact h.deliver line
  | enter t => exact h.enter t
  | abort error => exact h.abort error

/-- However many events it meets, a run stays sound. -/
theorem Sound.meets (h : e.Sound) (events : List Event) : (e.meets events).execution.Sound := by
  induction events generalizing e with
  | nil => exact h
  | cons x rest ih => exact ih (h.meet x)

end Execution

/-! ### What a turn brings -/

namespace Line

open Execution

theorem isLine_of_hear {l : Line} {bytes : List UInt8} (h : l.hear.1 = .bytes bytes) :
    IsLine bytes := by
  unfold hear at h
  split at h
  · rename_i line others hs
    cases h
    obtain ⟨front, hfront, hline⟩ :=
      lineFeed_piece (show pieces l.incoming = [] ++ bytes :: pieces others from
        pieces_of_splitLine? hs)
    exact ⟨front, hfront, hline.imp_right fun hline => hline.1⟩
  · rename_i hs
    dsimp only at h
    split at h
    · split at h <;> cases h
      exact ⟨_, splitLine?_eq_none_iff.mp hs, .inr rfl⟩
    · cases h
    · cases h

/-- What a run that waits meets when something is heard. Silence is broken by the signal, if it is
given. -/
def Heard.events (signal : Signal) : Heard → List Execution.Event
  | .bytes b => [.deliver (Utf8.decodeLossy b)]
  | .closed | .broken => [.abort .inputClosed]
  | .silence => if signal = .never then [] else [.abort .cancelled]

/-- What a run meets when its bytes are sent: an abort if they are refused. -/
def refusals (l : Line) (bytes : List UInt8) : List Execution.Event :=
  if bytes.isEmpty then [] else ((l.send bytes).2.map fun text => .abort (.output text)).toList

end Line

namespace Run

open Execution

variable {disk : Disk} {facts : ChangingFacts} {others : Others} {r : Run}

/-- What a run meets while it is advanced and what it emits is sent. -/
def speakEvents (facts : ChangingFacts) (others : Others) (budget : Nat) (r : Run) :
    List Execution.Event :=
  let around := others.circumstances facts budget r.steps r.store
  around.map .step ++ r.line.refusals (r.execution.makes around).bytes

/-- What a run meets while it waits for a line. -/
def listenEvents (hangupFirst : Bool) (r : Run) : List Execution.Event :=
  if hangupFirst && r.line.signal == .given then [.abort .cancelled]
  else r.line.hear.1.events r.line.signal

/-- What a run that waits for a template meets. -/
def receiveEvents : Except RunError Template → List Execution.Event
  | .ok t => [.enter t]
  | .error e => [.abort e]

/-- What a run meets when it is given what it needs. -/
def respondEvents (disk : Disk) (hangupFirst : Bool) (others : Others) (r : Run) :
    List Execution.Event :=
  match r.execution.state with
  | .finished _ => []
  | .running => if r.line.signal = .given then [.abort .cancelled] else []
  | .including name => receiveEvents (r.store.getOrLoadAmid disk others name).result
  | .suspended _ => r.listenEvents hangupFirst

/-- What a run that has its turn meets in it. -/
def turnEvents (disk : Disk) (facts : ChangingFacts) (hangupFirst : Bool) (others : Others)
    (r : Run) : List Execution.Event :=
  let spoken := r.speakAmid facts others stepBudget
  r.speakEvents facts others stepBudget ++
    match spoken.phase with
    | .going => spoken.respondEvents disk hangupFirst others
    | _ => []

/-- What a run meets in at most so many turns, in order. -/
def chronicle (disk : Disk) (facts : ChangingFacts) :
    (Nat → Bool) → (Nat → Others) → Nat → Run → List Execution.Event
  | _, _, 0, _ => []
  | races, others, turns + 1, r =>
    match r.phase with
    | .going =>
      r.turnEvents disk facts (races 0) (others 0) ++
        chronicle disk facts (fun n => races (n + 1)) (fun n => others (n + 1)) turns
          (r.turnAmid disk facts (races 0) (others 0))
    | _ => []

/-! ### The run is what its events make of it -/

theorem execution_utter (r : Run) (a : Advance) :
    (r.utter a).execution = (a.execution.meets (r.line.refusals a.bytes)).execution := by
  unfold utter Line.refusals
  dsimp only [take]
  split
  · rfl
  split
  · rename_i hs
    rw [hs]
    rfl
  · rename_i hs
    rw [hs]
    rfl

theorem execution_speakAmid (facts : ChangingFacts) (others : Others) (budget : Nat) (r : Run) :
    (r.speakAmid facts others budget).execution =
      (r.execution.meets (r.speakEvents facts others budget)).execution := by
  unfold speakEvents
  rw [speakAmid_eq, execution_utter, proceedAmid_eq_makes, meets_append,
    Advance.execution_andThen]
  rfl

theorem execution_listen (hangupFirst : Bool) (r : Run) :
    (r.listen hangupFirst).execution =
      (r.execution.meets (r.listenEvents hangupFirst)).execution := by
  unfold listen listenEvents
  dsimp only
  split
  · rfl
  cases r.line.hear.1 with
  | bytes b => rfl
  | closed => rfl
  | broken => rfl
  | silence =>
    unfold fallSilent Line.Heard.events
    dsimp only
    rw [Line.signal_hear]
    cases r.line.signal <;> rfl

theorem execution_receive_meets (r : Run) (reply : Store.Reply RunError) :
    (r.receive reply).execution =
      (r.execution.meets (receiveEvents reply.result)).execution := by
  unfold receive receiveEvents
  cases reply.result <;> rfl

theorem execution_respondAmid (disk : Disk) (hangupFirst : Bool) (others : Others) (r : Run) :
    (r.respondAmid disk hangupFirst others).execution =
      (r.execution.meets (r.respondEvents disk hangupFirst others)).execution := by
  unfold respondAmid respondEvents respond
  cases r.execution.state with
  | running =>
    dsimp only
    split <;> rfl
  | suspended w => exact execution_listen hangupFirst r
  | including name => exact execution_receive_meets r _
  | finished o => rfl

theorem execution_turnAmid (h : r.phase = .going) (disk : Disk) (facts : ChangingFacts)
    (hangupFirst : Bool) (others : Others) :
    (r.turnAmid disk facts hangupFirst others).execution =
      (r.execution.meets (r.turnEvents disk facts hangupFirst others)).execution := by
  unfold turnEvents
  dsimp only
  rw [meets_append, Advance.execution_andThen, ← execution_speakAmid]
  by_cases hs : (r.speakAmid facts others stepBudget).phase = .going
  · rw [turnAmid_of_going h hs, execution_respondAmid, hs]
  · rw [turnAmid_of_spoken h hs]
    split
    · contradiction
    · rfl

/-- **A conducted run is what its events make of it**, after any number of turns. -/
theorem execution_driveAmid (disk : Disk) (facts : ChangingFacts) (races : Nat → Bool)
    (others : Nat → Others) (turns : Nat) (r : Run) :
    (r.driveAmid disk facts races others turns).execution =
      (r.execution.meets (r.chronicle disk facts races others turns)).execution := by
  induction turns generalizing races others r with
  | zero => rfl
  | succ turns ih =>
    by_cases h : r.phase = .going
    · rw [driveAmid_succ h, ih, execution_turnAmid h, ← Advance.execution_andThen,
        ← meets_append, chronicle, h]
    · rw [driveAmid_of_not_going h, chronicle]
      split
      · contradiction
      · rfl

/-! ### Only lines are delivered -/

theorem isRead_of_mem_speakEvents {budget : Nat} {x : Execution.Event}
    (h : x ∈ r.speakEvents facts others budget) : x.IsRead := by
  unfold speakEvents at h
  rcases List.mem_append.mp h with h | h
  · obtain ⟨around, -, rfl⟩ := List.mem_map.mp h
    trivial
  · unfold Line.refusals at h
    split at h
    · cases h
    · obtain ⟨text, -, rfl⟩ := Option.map_eq_some_iff.mp (Option.mem_toList.mp h)
      trivial

theorem isRead_of_mem_listenEvents {hangupFirst : Bool} {x : Execution.Event}
    (h : x ∈ r.listenEvents hangupFirst) : x.IsRead := by
  unfold listenEvents at h
  split at h
  · cases List.mem_singleton.mp h
    trivial
  cases hheard : r.line.hear.1 with
  | bytes b =>
    rw [hheard] at h
    cases List.mem_singleton.mp h
    exact ⟨b, Line.isLine_of_hear hheard, rfl⟩
  | closed | broken =>
    rw [hheard] at h
    cases List.mem_singleton.mp h
    trivial
  | silence =>
    rw [hheard, Line.Heard.events] at h
    split at h
    · cases h
    · cases List.mem_singleton.mp h
      trivial

theorem isRead_of_mem_respondEvents {hangupFirst : Bool} {x : Execution.Event}
    (h : x ∈ r.respondEvents disk hangupFirst others) : x.IsRead := by
  unfold respondEvents at h
  split at h
  · cases h
  · split at h
    · cases List.mem_singleton.mp h
      trivial
    · cases h
  · unfold receiveEvents at h
    split at h <;> cases List.mem_singleton.mp h <;> trivial
  · exact isRead_of_mem_listenEvents h

/-- **Nothing but lines is delivered** in a run that is conducted. -/
theorem isRead_of_mem_chronicle {races : Nat → Bool} {others : Nat → Others} {turns : Nat}
    {x : Execution.Event} (h : x ∈ r.chronicle disk facts races others turns) : x.IsRead := by
  induction turns generalizing races others r with
  | zero => cases h
  | succ turns ih =>
    unfold chronicle at h
    split at h
    · rcases List.mem_append.mp h with h | h
      · unfold turnEvents at h
        rcases List.mem_append.mp h with h | h
        · exact isRead_of_mem_speakEvents h
        · split at h
          · exact isRead_of_mem_respondEvents h
          · cases h
      · exact ih h
    · cases h

end Run

end BulletinBoard
