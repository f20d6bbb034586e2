/-
# Counters tell the truth

Any number of runs share a store: some are held by somebody who does with them what may be done with
a run, others are conducted on a line, half a turn at a time. Between any two of these steps the
store may be asked for something. Whatever the order, what was counted is what happened: the drafts
that compiled and those that did not, the instructions that were carried out and not acted on, the
runs that ended, by how they ended, and the runs that could not begin (`Floor.counts_what_happened`).
A run that has ended stays as it is.

One event counts the work it does and the end of a run if it leads there (`Floor.balances_after`),
and a history is its events, one after the other (`Floor.balances_run`).

Key definitions: `Act`, `Party`, `Floor`, `Event`, `Floor.after`, `Floor.drafts`,
`Floor.carriedOut`, `Floor.refusals`, `Floor.along`.
Key theorems: `Floor.balances_after`, `Floor.balances_run`, `Floor.finished_run`,
`Floor.counts_what_happened`.
-/
import BulletinBoard.Proofs.Run.Accounts

namespace BulletinBoard

open Text Template

/-! ### What is done with a run -/

/-- What somebody who holds a run does with it. -/
inductive Act where
  | advance (facts : ChangingFacts)
  | deliver (line : String)
  | enter (t : Template)
  | abort (error : RunError)

namespace Act

/-- What an act leads to. -/
def does (store : Store) (e : Execution) : Act → Advance
  | advance facts => (e.proceed store facts stepBudget 0).1
  | deliver line => e.deliver line
  | enter t => e.enter t
  | abort error => e.abort error

/-- The instructions that are carried out. -/
def carriesOut (store : Store) (e : Execution) : Act → List Instruction
  | advance facts => e.carriedOut store facts stepBudget 0
  | _ => []

theorem balances (store : Store) (e : Execution) (a : Act) :
    (a.does store e).Balances e (.ofInstructions (a.carriesOut store e)) := by
  cases a with
  | advance facts => exact e.balances_proceed store facts stepBudget 0
  | deliver line => exact e.balances_deliver line
  | enter t => exact e.balances_enter t
  | abort error => exact e.balances_abort error

/-- With a run that has ended nothing can be done: it stays as it is, sends nothing and counts
nothing. -/
theorem does_of_finished {e : Execution} {o : Outcome} (h : e.state = .finished o) (store : Store)
    (a : Act) : (a.does store e).execution = e ∧ (a.does store e).bytes = [] ∧
      (a.does store e).log.tally = .zero := by
  cases a with
  | advance facts =>
    rw [does, Execution.proceed_of_finished h]
    exact ⟨rfl, rfl, rfl⟩
  | deliver line =>
    rw [does, Execution.deliver, h]
    exact ⟨rfl, rfl, rfl⟩
  | enter t =>
    rw [does, Execution.enter, h]
    exact ⟨rfl, rfl, rfl⟩
  | abort error =>
    rw [does, Execution.abort, h]
    exact ⟨rfl, rfl, rfl⟩

end Act

/-! ### Many runs -/

/-- A run among others. One that is conducted has a line, is somewhere between two turns, and has
made so many steps. -/
structure Party where
  execution : Execution
  conducted? : Option (Line × Phase × Nat)

/-- A run that is conducted, with the store it shares and an empty log. -/
def Party.run? (store : Store) (p : Party) : Option Run :=
  p.conducted?.map fun c => ⟨p.execution, store, c.1, .empty, c.2.1, c.2.2⟩

/-- A conducted run, among others. -/
def Run.party (r : Run) : Party := ⟨r.execution, some (r.line, r.phase, r.steps)⟩

/-- A store, the runs that share it in the order in which they began, and what there was to tell. -/
structure Floor where
  store : Store
  parties : List Party
  log : Log

/-- Something that happens. Runs are known by their number. -/
inductive Event where
  /-- The store is asked for something. -/
  | ask (disk : Disk) (call : Store.Call)
  | loadAll (disk : Disk)
  /-- Another store is used from here on. -/
  | turnTo (store : Store)
  /-- A run of a template begins, and somebody holds it. -/
  | start (t : Template) (charset : Charset)
  /-- A run of the template of a name begins, and is conducted on a line. -/
  | begin (disk : Disk) (charset : Charset) (line : Line) (name : String)
  | act (n : Nat) (a : Act)
  /-- A conducted run is advanced, and what it emits is sent. -/
  | speak (n : Nat) (facts : ChangingFacts)
  /-- A conducted run gets what it needs after it was advanced. -/
  | respond (n : Nat) (disk : Disk) (hangupFirst : Bool)

/-- The ways in which a run can end. -/
inductive Way where
  | completed
  | halted
  | aborted
  deriving DecidableEq

/-- The way in which a run ended. -/
def Outcome.way : Outcome → Way
  | completed => .completed
  | halted _ => .halted
  | aborted _ => .aborted

namespace Floor

/-- A floor before anything has happened. -/
def opened (store : Store) : Floor := ⟨store, [], .empty⟩

/-- The conducted run of a number. -/
def run? (f : Floor) (n : Nat) : Option Run := f.parties[n]?.bind (Party.run? f.store)

/-- Takes over what half a turn of a conducted run leads to. -/
def halfTurn (f : Floor) (n : Nat) (turn : Run → Run) : Floor :=
  match f.run? n with
  | none => f
  | some r => ⟨(turn r).store, f.parties.set n (turn r).party, f.log ++ (turn r).log⟩

/-- What an event leads to. -/
def after (f : Floor) : Event → Floor
  | .ask disk call =>
    { f with store := f.store.after disk call, log := f.log ++ f.store.logOf disk call }
  | .loadAll disk =>
    { f with store := (f.store.loadAll disk).store, log := f.log ++ (f.store.loadAll disk).log }
  | .turnTo store => { f with store }
  | .start t charset => { f with parties := f.parties ++ [⟨.start t charset, none⟩] }
  | .begin disk charset line name =>
    match Run.begin disk charset f.store line name with
    | .inl r => ⟨r.store, f.parties ++ [r.party], f.log ++ r.log⟩
    | .inr c => ⟨c.store, f.parties, f.log ++ c.log⟩
  | .act n a =>
    match f.parties[n]? with
    | none => f
    | some p =>
      let done := a.does f.store p.execution
      { f with
        parties := f.parties.set n { p with execution := done.execution }
        log := f.log ++ done.log }
  | .speak n facts => f.halfTurn n fun r => r.speak facts stepBudget
  | .respond n disk hangupFirst => f.halfTurn n fun r => r.respond disk hangupFirst

/-- What a history leads to. -/
def run (f : Floor) (history : List Event) : Floor := history.foldl after f

/-! ### What happens -/

/-- The drafts that are compiled in an event. -/
def drafts (f : Floor) : Event → List Draft
  | .ask disk call => f.store.drafts disk call
  | .loadAll disk => f.store.allDrafts disk
  | .begin disk _ _ name => f.store.drafts disk (.getOrLoad name)
  | .respond n disk _ => ((f.run? n).map (Run.drafts disk)).getD []
  | _ => []

/-- The instructions that are carried out in an event. -/
def carriedOut (f : Floor) : Event → List Instruction
  | .act n a => (f.parties[n]?.map fun p => a.carriesOut f.store p.execution).getD []
  | .speak n facts =>
    ((f.run? n).map fun r => r.execution.carriedOut f.store facts stepBudget r.steps).getD []
  | _ => []

/-- Why a run could not begin in an event, if one could not. -/
def refusals (f : Floor) : Event → List RunError
  | .begin disk _ _ name =>
    match (f.store.getOrLoad disk name).result with
    | .ok _ => []
    | .error e => [e]
  | _ => []

/-- What happens in the events of a history. -/
def along {α : Type} (happens : Floor → Event → List α) (f : Floor) : List Event → List α
  | [] => []
  | e :: rest => happens f e ++ along happens (f.after e) rest

/-- How many runs have ended in a way. -/
def ended (f : Floor) (way : Way) : Nat :=
  f.parties.countP fun p => p.execution.outcome?.map Outcome.way = some way

end Floor

/-! ### The balance of an event -/

/-- What is counted of the ends of runs. -/
def Tally.ofEnds (ps : List Party) : Tally :=
  { Tally.zero with
    completed := ps.countP fun p => p.execution.outcome?.map Outcome.way = some .completed
    halted := ps.countP fun p => p.execution.outcome?.map Outcome.way = some .halted
    aborted := ps.countP fun p => p.execution.outcome?.map Outcome.way = some .aborted }

/-- What is counted of runs that could not begin. -/
def Tally.ofRefusals (errors : List RunError) : Tally :=
  { Tally.zero with aborted := errors.length }

namespace Tally

theorem ofEnds_append (ps qs : List Party) : ofEnds (ps ++ qs) = ofEnds ps + ofEnds qs := by
  simp [ofEnds, add_def, add, zero]

theorem ofEnds_singleton (p : Party) : ofEnds [p] = p.execution.state.tally := by
  unfold ofEnds Execution.outcome?
  simp only [List.countP_singleton]
  cases p.execution.state with
  | finished o => cases o <;> rfl
  | _ => rfl

theorem ofRefusals_append (es more : List RunError) :
    ofRefusals (es ++ more) = ofRefusals es + ofRefusals more := by
  simp [ofRefusals, add_def, add, zero]

/-- If one run takes the place of another, its end counts instead. -/
theorem ofEnds_set {ps : List Party} {n : Nat} {p : Party} (h : ps[n]? = some p) (q : Party) :
    ofEnds (ps.set n q) + p.execution.state.tally = ofEnds ps + q.execution.state.tally := by
  have hcons : ∀ (x : Party) xs, ofEnds (x :: xs) = x.execution.state.tally + ofEnds xs :=
    fun x xs => by rw [← ofEnds_singleton, ← ofEnds_append, List.singleton_append]
  induction ps generalizing n with
  | nil => cases h
  | cons x xs ih =>
    cases n with
    | zero =>
      cases h
      rw [List.set_cons_zero, hcons, hcons]
      ac_rfl
    | succ n =>
      rw [List.set_cons_succ, hcons, hcons, add_assoc, ih h, add_assoc]

end Tally

namespace Floor

variable {f f' f'' : Floor} {work more : Tally}

/-- What is counted from one floor to another is the work that is done, and the ends of the runs
that had not ended before. -/
def Balances (f : Floor) (work : Tally) (f' : Floor) : Prop :=
  f'.log.tally + .ofEnds f.parties = f.log.tally + work + .ofEnds f'.parties

theorem balances_self (f : Floor) : f.Balances .zero f := by
  unfold Balances
  rw [Tally.add_zero]

theorem Balances.trans (h : f.Balances work f') (h' : f'.Balances more f'') :
    f.Balances (work + more) f'' :=
  Tally.balance_trans h h'

theorem balances_of_log (f : Floor) (store : Store) (log : Log) :
    f.Balances log.tally { f with store, log := f.log ++ log } := rfl

theorem balances_of_running (f : Floor) (store : Store) (log : Log) {p : Party}
    (h : p.execution.state = .running) :
    f.Balances log.tally ⟨store, f.parties ++ [p], f.log ++ log⟩ := by
  show f.log.tally + log.tally + .ofEnds f.parties =
    f.log.tally + log.tally + .ofEnds (f.parties ++ [p])
  rw [Tally.ofEnds_append, Tally.ofEnds_singleton, h]
  exact congrArg _ (Tally.add_zero _).symm

/-- If one run is touched, what is counted is the work that is done on it, and its end if it had not
ended before. -/
theorem balances_of_set {n : Nat} {p q : Party} {log : Log} (hp : f.parties[n]? = some p)
    (h : log.tally + p.execution.state.tally = work + q.execution.state.tally) (store : Store) :
    f.Balances work ⟨store, f.parties.set n q, f.log ++ log⟩ := by
  have hset := Tally.ofEnds_set hp q
  apply Tally.add_right_cancel
  calc f.log.tally + log.tally + .ofEnds f.parties + p.execution.state.tally
      = f.log.tally + .ofEnds f.parties + (log.tally + p.execution.state.tally) := by ac_rfl
    _ = f.log.tally + work + (.ofEnds f.parties + q.execution.state.tally) := by
        rw [h]
        ac_rfl
    _ = f.log.tally + work + .ofEnds (f.parties.set n q) + p.execution.state.tally := by
        rw [← hset]
        ac_rfl

theorem run?_eq_some {n : Nat} {r : Run} (h : f.run? n = some r) :
    r.store = f.store ∧ r.log = .empty ∧ f.parties[n]? = some r.party := by
  obtain ⟨p, hp, hr⟩ := Option.bind_eq_some_iff.mp h
  obtain ⟨c, hc, rfl⟩ := Option.map_eq_some_iff.mp hr
  refine ⟨rfl, rfl, ?_⟩
  rw [hp, Run.party, ← hc]

theorem balances_halfTurn {n : Nat} {turn : Run → Run} {r : Run} (hr : f.run? n = some r)
    (h : r.Balances work (turn r)) : f.Balances work (f.halfTurn n turn) := by
  obtain ⟨-, hlog, hp⟩ := run?_eq_some hr
  unfold Run.Balances at h
  rw [hlog] at h
  unfold halfTurn
  rw [hr]
  exact balances_of_set hp (h.trans (congrArg (· + _) (Tally.zero_add _))) _

theorem halfTurn_of_none {n : Nat} (h : f.run? n = none) (turn : Run → Run) :
    f.halfTurn n turn = f := by
  unfold halfTurn
  rw [h]

/-- What there is to count of what happens in an event. -/
def due (f : Floor) (e : Event) : Tally :=
  .ofDrafts (f.drafts e) + .ofInstructions (f.carriedOut e) + .ofRefusals (f.refusals e)

/-- A run that begins counts the drafts that are compiled for it, and that it could not begin if
there is no template. -/
theorem balances_begin (f : Floor) (disk : Disk) (charset : Charset) (line : Line) (name : String) :
    f.Balances (f.due (.begin disk charset line name))
      (f.after (.begin disk charset line name)) := by
  have hlog := f.store.tally_drafts disk (.getOrLoad name)
  unfold due after drafts carriedOut refusals Run.begin
  dsimp only
  rw [← hlog]
  cases hr : (f.store.getOrLoad disk name).result with
  | ok t =>
    rw [Run.opening_of_ok hr]
    exact f.balances_of_running _ _ rfl
  | error e =>
    rw [Run.opening_of_error hr]
    exact f.balances_of_log _ _

/-- **An event counts what happens in it, and the end of a run if it leads there.** -/
theorem balances_after (f : Floor) (e : Event) : f.Balances (f.due e) (f.after e) := by
  cases e with
  | ask disk call =>
    unfold due after drafts carriedOut refusals
    dsimp only
    rw [← f.store.tally_drafts disk call]
    exact f.balances_of_log _ _
  | loadAll disk =>
    unfold due after drafts carriedOut refusals
    dsimp only
    rw [← f.store.tally_loadAll disk]
    exact f.balances_of_log _ _
  | turnTo store => exact f.balances_self
  | start t charset =>
    have hstart : f.Balances Log.empty.tally
        ⟨f.store, f.parties ++ [⟨.start t charset, none⟩], f.log ++ .empty⟩ :=
      f.balances_of_running _ _ rfl
    rw [Log.append_empty] at hstart
    exact hstart
  | begin disk charset line name => exact f.balances_begin disk charset line name
  | act n a =>
    unfold due after drafts carriedOut refusals
    dsimp only
    cases hp : f.parties[n]? with
    | none => exact f.balances_self
    | some p =>
      show f.Balances (.zero + .ofInstructions (a.carriesOut f.store p.execution) + .zero) _
      rw [Tally.zero_add, Tally.add_zero]
      refine balances_of_set hp ?_ _
      exact a.balances f.store p.execution
  | speak n facts =>
    unfold due after drafts carriedOut refusals
    dsimp only
    cases hr : f.run? n with
    | none =>
      rw [halfTurn_of_none hr]
      exact f.balances_self
    | some r =>
      show f.Balances
        (.zero + .ofInstructions (r.execution.carriedOut f.store facts stepBudget r.steps) + .zero) _
      rw [Tally.zero_add, Tally.add_zero, ← (run?_eq_some hr).1]
      exact balances_halfTurn hr (r.balances_speak facts stepBudget)
  | respond n disk hangupFirst =>
    unfold due after drafts carriedOut refusals
    dsimp only
    cases hr : f.run? n with
    | none =>
      rw [halfTurn_of_none hr]
      exact f.balances_self
    | some r =>
      show f.Balances (.ofDrafts (r.drafts disk) + .zero + .zero) _
      rw [Tally.add_zero, Tally.add_zero]
      exact balances_halfTurn hr (r.balances_respond disk hangupFirst)

/-! ### Histories -/

theorem run_cons (f : Floor) (e : Event) (rest : List Event) :
    f.run (e :: rest) = (f.after e).run rest := rfl

/-- A history counts what happens in it, and the ends of the runs that end in it. -/
theorem balances_run (f : Floor) (history : List Event) :
    f.Balances (.ofDrafts (along drafts f history) + .ofInstructions (along carriedOut f history) +
      .ofRefusals (along refusals f history)) (f.run history) := by
  induction history generalizing f with
  | nil => exact f.balances_self
  | cons e rest ih =>
    have hboth := (f.balances_after e).trans (ih (f.after e))
    rw [run_cons]
    unfold along
    rw [Tally.ofDrafts_append, Tally.ofInstructions_append, Tally.ofRefusals_append]
    have hsum : f.due e + (.ofDrafts (along drafts (f.after e) rest) +
        .ofInstructions (along carriedOut (f.after e) rest) +
        .ofRefusals (along refusals (f.after e) rest)) =
      .ofDrafts (f.drafts e) + .ofDrafts (along drafts (f.after e) rest) +
        (.ofInstructions (f.carriedOut e) +
          .ofInstructions (along carriedOut (f.after e) rest)) +
        (.ofRefusals (f.refusals e) + .ofRefusals (along refusals (f.after e) rest)) := by
      unfold due
      ac_rfl
    rw [← hsum]
    exact hboth

/-- A run keeps its number, and is as before if the one that takes its place is. -/
theorem exists_of_set {ps : List Party} {n m : Nat} {p q : Party} (hp : ps[n]? = some p)
    (h : ps[m]? = some p → q.execution = p.execution) :
    ∃ q', (ps.set m q)[n]? = some q' ∧ q'.execution = p.execution := by
  by_cases hm : m = n
  · subst hm
    have hlt : m < ps.length := (List.getElem?_eq_some_iff.mp hp).1
    exact ⟨q, List.getElem?_set_self hlt, h hp⟩
  · exact ⟨p, (List.getElem?_set_ne hm).trans hp, rfl⟩

theorem finished_halfTurn {n m : Nat} {p : Party} {o : Outcome} {turn : Run → Run}
    (hp : f.parties[n]? = some p) (ho : p.execution.state = .finished o)
    (h : ∀ r : Run, r.execution.state = .finished o → (turn r).execution = r.execution) :
    ∃ q, (f.halfTurn m turn).parties[n]? = some q ∧ q.execution = p.execution := by
  unfold halfTurn
  cases hr : f.run? m with
  | none => exact ⟨p, hp, rfl⟩
  | some r =>
    refine exists_of_set hp fun hm => ?_
    have hparty : r.party = p := Option.some.inj ((run?_eq_some hr).2.2.symm.trans hm)
    have hexecution : r.execution = p.execution := congrArg Party.execution hparty
    exact (h r (hexecution ▸ ho)).trans hexecution

/-- A run that has ended stays as it is, whatever happens. -/
theorem finished_after {n : Nat} {p : Party} {o : Outcome} (hp : f.parties[n]? = some p)
    (ho : p.execution.state = .finished o) (e : Event) :
    ∃ q, (f.after e).parties[n]? = some q ∧ q.execution = p.execution := by
  have happend : ∀ q, (f.parties ++ [q])[n]? = some p := fun q => by
    rw [List.getElem?_append_left (List.getElem?_eq_some_iff.mp hp).1]
    exact hp
  unfold after
  cases e with
  | ask disk call => exact ⟨p, hp, rfl⟩
  | loadAll disk => exact ⟨p, hp, rfl⟩
  | turnTo store => exact ⟨p, hp, rfl⟩
  | start t charset => exact ⟨p, happend _, rfl⟩
  | begin disk charset line name =>
    dsimp only
    split
    · exact ⟨p, happend _, rfl⟩
    · exact ⟨p, hp, rfl⟩
  | act m a =>
    dsimp only
    split
    · exact ⟨p, hp, rfl⟩
    · rename_i q hq
      refine exists_of_set hp fun hm => ?_
      cases hq.symm.trans hm
      exact (a.does_of_finished ho f.store).1
  | speak m facts =>
    refine finished_halfTurn hp ho fun r hr => ?_
    rw [Run.speak, Execution.proceed_of_finished hr]
    rfl
  | respond m disk hangupFirst =>
    refine finished_halfTurn hp ho fun r hr => ?_
    unfold Run.respond
    rw [hr]

theorem finished_run {n : Nat} {p : Party} {o : Outcome} (hp : f.parties[n]? = some p)
    (ho : p.execution.state = .finished o) (history : List Event) :
    ∃ q, (f.run history).parties[n]? = some q ∧ q.execution = p.execution := by
  induction history generalizing f p with
  | nil => exact ⟨p, hp, rfl⟩
  | cons e rest ih =>
    obtain ⟨q, hq, he⟩ := finished_after hp ho e
    obtain ⟨q', hq', he'⟩ := ih hq (he ▸ ho)
    exact ⟨q', hq', he'.trans he⟩

/-- **Counters tell the truth.** From before anything has happened, after any history, the board has
counted the drafts that compiled and those whose brackets or words are wrong, the runs that have
completed, those that were halted, those that were aborted and those that could not begin, and the
instructions that were carried out though the board does not act on them. Files that could not be
read are counted nowhere.

The end of a run is counted by what leads to it, and never again: a run that has ended stays as it
is, whatever happens, and what is done with it then sends nothing and counts nothing. -/
theorem counts_what_happened :
    (∀ store history,
      ((opened store).run history).log.tally =
        ⟨(along drafts (opened store) history).countP fun d => d.Succeeds,
          (along drafts (opened store) history).countP fun d => d.Fails,
          ((opened store).run history).ended .completed,
          ((opened store).run history).ended .halted,
          ((opened store).run history).ended .aborted +
            (along refusals (opened store) history).length,
          (along carriedOut (opened store) history).countP Instruction.ignored⟩) ∧
    (∀ (e : Execution) store (a : Act), e.outcome? = none →
      (a.does store e).log.tally =
        .ofInstructions (a.carriesOut store e) + (a.does store e).execution.state.tally) ∧
    (∀ (e : Execution) o store (a : Act), e.state = .finished o →
      (a.does store e).execution = e ∧ (a.does store e).bytes = [] ∧
        (a.does store e).log.tally = .zero) ∧
    ∀ (f : Floor) (n : Nat) (p : Party) (o : Outcome), f.parties[n]? = some p →
      p.execution.state = .finished o →
        ∀ history, ∃ q : Party,
          (f.run history).parties[n]? = some q ∧ q.execution = p.execution := by
  refine ⟨fun store history => ?_, fun e store a he => ?_,
    fun e o store a ho => a.does_of_finished ho store,
    fun f n p o hp ho history => finished_run hp ho history⟩
  · have hbalance : ((opened store).run history).log.tally + .zero = .zero +
        (.ofDrafts (along drafts (opened store) history) +
          .ofInstructions (along carriedOut (opened store) history) +
          .ofRefusals (along refusals (opened store) history)) +
        .ofEnds ((opened store).run history).parties :=
      (opened store).balances_run history
    rw [Tally.add_zero, Tally.zero_add] at hbalance
    rw [hbalance]
    simp [Tally.ofDrafts, Tally.ofInstructions, Tally.ofRefusals, Tally.ofEnds, Tally.add_def,
      Tally.add, Tally.zero, ended, Nat.add_comm]
  · have hzero : e.state.tally = .zero := by
      unfold Execution.outcome? at he
      cases hs : e.state with
      | finished o =>
        rw [hs] at he
        cases he
      | _ => rfl
    have hbalance := a.balances store e
    unfold Advance.Balances at hbalance
    rw [hzero, Tally.add_zero] at hbalance
    exact hbalance

/-! ### A short history -/

/-- Two drafts, one of which is not closed, and two runs, one of which has no template. The other
comes by an instruction the board does not act on. -/
def morning : List Event :=
  [.ask ⟨.empty, []⟩ (.compile "hi" "hi[post]"), .ask ⟨.empty, []⟩ (.compile "bad" "hi[post"),
    .begin ⟨.empty, []⟩ .utf8 ⟨[], .closed, none, none, "", [], .never⟩ "hi",
    .begin ⟨.empty, []⟩ .utf8 ⟨[], .closed, none, none, "", [], .never⟩ "lost",
    .speak 0 Facts.empty]

/-- All of it is counted, and an abort is counted if it ends the run, but not after the run has
ended. -/
theorem counts_what_happened_morning :
    ((opened (.empty none)).run morning).log.tally = ⟨1, 1, 1, 0, 1, 1⟩ ∧
    ((Act.abort .cancelled).does (.empty none) (.start (.of "hi" "" []) .utf8)).log.tally =
      { Tally.zero with aborted := 1 } ∧
    ∃ p, ((opened (.empty none)).run morning).parties[0]? = some p ∧
      p.execution.state = .finished .completed ∧
      ((Act.abort .cancelled).does (.empty none) p.execution).log.tally = .zero ∧
      ∃ q, (((opened (.empty none)).run morning).run [.act 0 (.abort .cancelled)]).parties[0]? =
          some q ∧ q.execution = p.execution := by
  obtain ⟨hcounts, hends, hover, hstays⟩ := counts_what_happened
  have hrunning : (Execution.start (.of "hi" "" []) .utf8).outcome? = none := rfl
  have hended : ((opened (.empty none)).run morning).parties[0]?.map
      (fun p => p.execution.state) = some (.finished .completed) := by decide +kernel
  obtain ⟨p, hp, ho⟩ := Option.map_eq_some_iff.mp hended
  refine ⟨?_, (hends _ _ _ hrunning).trans rfl, p, hp, ho, (hover _ _ _ _ ho).2.2,
    hstays _ 0 p _ hp ho _⟩
  rw [hcounts]
  decide +kernel

end Floor

end BulletinBoard
