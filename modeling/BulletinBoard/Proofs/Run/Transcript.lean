/-
# What is said and heard in a run

A run against a line says something in every turn, and in some it waits and hears something. The
transcript lists the turns in order. On a line that takes everything and is never hung up, each
wait comes when all that was said is sent, and what is heard is the next piece of the input
(`Talk.at_wait`). A run that refuses the piece it was given waits again at once, and another has
nothing to wait for until it asks.

One walk through the transcript says so (`Talk`): it goes from line to line, and remembers the run
that is still waiting. A turn is a step of the walk (`Run.talk_turn`), so any number of turns is a walk,
and walks that meet are one.

Key definitions: `Line.pieces`, `Passage`, `Run.transcript`, `Talk`.
Key theorems: `Line.pieces_hear`, `Talk.at_wait`, `Run.talk_turn`, `Run.talk_transcript`.
-/
import BulletinBoard.Proofs.Run.OnDemand
import BulletinBoard.Proofs.Run.Refusal

namespace BulletinBoard

open Text Template

/-! ### Pieces of the input -/

namespace Line

/-- Bytes, split behind every line feed. -/
def pieces : List UInt8 → List (List UInt8)
  | [] => []
  | b :: rest =>
    if b = lineFeed then [b] :: pieces rest
    else
      match pieces rest with
      | [] => [[b]]
      | piece :: others => (b :: piece) :: others

theorem pieces_cons_of_ne {b : UInt8} (h : b ≠ lineFeed) (rest : List UInt8) :
    pieces (b :: rest) = (b :: (pieces rest).head?.getD []) :: (pieces rest).tail := by
  rw [pieces, if_neg h]
  cases pieces rest <;> rfl

/-- Splitting loses nothing and moves nothing. -/
theorem flatten_pieces (bytes : List UInt8) : (pieces bytes).flatten = bytes := by
  induction bytes with
  | nil => rfl
  | cons b rest ih =>
    by_cases hb : b = lineFeed
    · rw [pieces, if_pos hb, List.flatten_cons, ih]
      rfl
    · rw [pieces_cons_of_ne hb, List.flatten_cons, List.cons_append]
      refine congrArg _ (Eq.trans ?_ ih)
      cases pieces rest <;> rfl

/-- Every piece but the last ends with its only line feed, and the last may lack it. -/
theorem lineFeed_piece {bytes piece : List UInt8} {before after : List (List UInt8)}
    (h : pieces bytes = before ++ piece :: after) :
    ∃ text, lineFeed ∉ text ∧
      (piece = text ++ [lineFeed] ∨ piece = text ∧ text ≠ [] ∧ after = []) := by
  induction bytes generalizing before piece after with
  | nil => exact absurd h (by simp [pieces])
  | cons b rest ih =>
    by_cases hb : b = lineFeed
    · rw [pieces, if_pos hb] at h
      cases before with
      | nil =>
        cases h
        exact ⟨[], List.not_mem_nil, .inl (by rw [hb]; rfl)⟩
      | cons p before => exact ih (List.cons.inj h).2
    · rw [pieces, if_neg hb] at h
      cases hp : pieces rest with
      | nil =>
        rw [hp] at h
        cases before with
        | nil =>
          cases h
          exact ⟨[b], by simpa using Ne.symm hb, .inr ⟨rfl, List.cons_ne_nil _ _, rfl⟩⟩
        | cons p before => exact absurd (List.cons.inj h).2 (by simp)
      | cons p others =>
        rw [hp] at h
        cases before with
        | nil =>
          cases h
          obtain ⟨text, htext, hpiece⟩ := ih (show pieces rest = [] ++ p :: after from hp)
          refine ⟨b :: text, by simp [htext, Ne.symm hb], ?_⟩
          rcases hpiece with hpiece | ⟨hpiece, -, hlast⟩
          · exact .inl (by rw [hpiece]; rfl)
          · exact .inr ⟨by rw [hpiece], List.cons_ne_nil _ _, hlast⟩
        | cons q before =>
          have hrest : pieces rest = (p :: before) ++ piece :: after := by
            rw [hp, (List.cons.inj h).2]
            rfl
          exact ih hrest

theorem pieces_of_splitLine? {bytes line others : List UInt8}
    (h : splitLine? bytes = some (line, others)) : pieces bytes = line :: pieces others := by
  induction bytes generalizing line with
  | nil => cases h
  | cons b rest ih =>
    unfold splitLine? at h
    by_cases hb : b = lineFeed
    · rw [if_pos hb] at h
      cases h
      rw [pieces, if_pos hb]
    · rw [if_neg hb] at h
      obtain ⟨⟨l, o⟩, hl, ho⟩ := Option.map_eq_some_iff.mp h
      cases ho
      rw [pieces_cons_of_ne hb, ih hl]
      rfl

theorem pieces_of_splitLine?_eq_none {bytes : List UInt8} (h : splitLine? bytes = none) :
    pieces bytes = if bytes.isEmpty then [] else [bytes] := by
  induction bytes with
  | nil => rfl
  | cons b rest ih =>
    have hnot := splitLine?_eq_none_iff.mp h
    rw [List.mem_cons, not_or] at hnot
    rw [pieces_cons_of_ne (Ne.symm hnot.1), ih (splitLine?_eq_none_iff.mpr hnot.2)]
    cases rest <;> rfl

/-- Where the input ends behind its last byte, what is heard is its first piece, and the others
are left. -/
theorem pieces_hear {l : Line} (h : l.ending = .closed) :
    l.hear.1 = ((pieces l.incoming).head?.elim .closed .bytes) ∧
      pieces l.hear.2.incoming = (pieces l.incoming).tail := by
  unfold hear
  cases hs : splitLine? l.incoming with
  | some split =>
    rw [pieces_of_splitLine? hs]
    exact ⟨rfl, rfl⟩
  | none =>
    rw [pieces_of_splitLine?_eq_none hs]
    dsimp only
    rw [h]
    cases l.incoming <;> exact ⟨rfl, rfl⟩

/-- The line after the caller has taken some bytes. -/
def told (l : Line) (bytes : List UInt8) : Line := { l with outgoing := l.outgoing ++ bytes }

end Line

/-! ### Transcripts -/

/-- The run, if it waits for the caller. -/
def Execution.waiting? (e : Execution) : Option Execution :=
  match e.state with
  | .suspended _ => some e
  | _ => none

theorem Execution.suspended_of_waiting? {e x : Execution} (h : e.waiting? = some x) :
    x = e ∧ ∃ kind, e.state = .suspended kind := by
  unfold waiting? at h
  split at h
  · rename_i kind hk
    exact ⟨(Option.some.inj h).symm, kind, hk⟩
  · cases h

/-- The only wait that refuses a line is one for a line that is not blank, and it refuses the blank
ones. -/
theorem Execution.answer_eq_none_iff {kind : Wait} {old : Option String} {line : String} :
    answer kind old line = none ↔ kind = .required ∧ (trim line).isEmpty = true := by
  cases kind <;> simp [answer]

/-- A run is as before if it refuses the line, and runs if it does not. -/
theorem Execution.deliver_suspended (e : Execution) {kind : Wait} (h : e.state = .suspended kind)
    (line : String) :
    if kind = .required ∧ (trim (trimLineEnd line)).isEmpty = true then
      (e.deliver line).execution = e
    else (e.deliver line).execution.state = .running := by
  unfold deliver
  rw [h]
  dsimp only
  cases ha : answer kind e.response (trimLineEnd line) with
  | none =>
    rw [if_pos (answer_eq_none_iff.mp ha)]
    rfl
  | some response =>
    have hn : ¬ (kind = .required ∧ (trim (trimLineEnd line)).isEmpty = true) := fun hr => by
      cases ha.symm.trans (answer_eq_none_iff.mpr hr)
    rw [if_neg hn]
    rfl

/-- A wait for the caller: the run that waits, the line as it stands when it is read, and the run
after it was given what was heard. -/
structure Waiting where
  execution : Execution
  line : Line
  next : Execution

namespace Waiting

/-- What is heard. -/
def heard (w : Waiting) : Line.Heard := w.line.hear.1

/-- The run waits and is given what is heard, or is aborted where there is nothing to hear. -/
structure Heeds (w : Waiting) (kind : Wait) : Prop where
  state : w.execution.state = .suspended kind
  bytes : ∀ {b}, w.heard = .bytes b →
    w.next = (w.execution.deliver (Utf8.decodeLossy b)).execution
  closed : w.heard = .closed → w.next = (w.execution.abort .inputClosed).execution

end Waiting

/-- A passage of a transcript: what a run says in a turn, and its wait then, if it waits. -/
structure Passage where
  said : List UInt8
  wait? : Option Waiting

namespace Run

/-- What is said and heard in the next turn. -/
def passage (disk : Disk) (facts : ChangingFacts) (hangupFirst : Bool) (r : Run) : Passage where
  said := (r.spoken facts).bytes
  wait? :=
    let spoken := r.speak facts stepBudget
    match spoken.phase with
    | .going => spoken.execution.waiting?.map fun e =>
        ⟨e, spoken.line, (r.turn disk facts hangupFirst).execution⟩
    | _ => none

/-- What is said and heard in so many turns. -/
def transcript (disk : Disk) (facts : ChangingFacts) (races : Nat → Bool) : Nat → Run → List Passage
  | 0, _ => []
  | turns + 1, r =>
    match r.phase with
    | .going =>
      r.passage disk facts (races 0) ::
        transcript disk facts (fun n => races (n + 1)) turns (r.turn disk facts (races 0))
    | _ => []

end Run

/-- What is said in a transcript. -/
def saidIn (ps : List Passage) : List UInt8 := ps.flatMap Passage.said

/-- The waits of a transcript. -/
def waitsIn (ps : List Passage) : List Waiting := ps.filterMap Passage.wait?

/-! ### Walks -/

/-- A walk through a transcript, from a line and the run that is still waiting, if one is, to
another line and such a run. What is said is on the line when it is read, and a run that is still
waiting says nothing and goes on waiting. -/
inductive Talk : Line → Option Execution → List Passage → Line → Option Execution → Prop where
  | nil (l : Line) (e : Option Execution) : Talk l e [] l e
  | spoke {l l' : Line} {e' : Option Execution} {bytes : List UInt8} {ps : List Passage}
      (h : Talk (l.told bytes) none ps l' e') : Talk l none (⟨bytes, none⟩ :: ps) l' e'
  | asked {l l' : Line} {e e' : Option Execution} {bytes : List UInt8} {w : Waiting} {kind : Wait}
      {ps : List Passage} (he : ∀ x, e = some x → bytes = [] ∧ w.execution = x)
      (hl : w.line = l.told bytes) (hw : w.Heeds kind)
      (h : Talk w.line.hear.2 w.next.waiting? ps l' e') : Talk l e (⟨bytes, some w⟩ :: ps) l' e'

namespace Talk

variable {l m l' : Line} {e d e' : Option Execution} {ps qs : List Passage}

theorem append (h : Talk l e ps m d) (h' : Talk m d qs l' e') : Talk l e (ps ++ qs) l' e' := by
  induction h with
  | nil => exact h'
  | spoke _ ih => exact .spoke (ih h')
  | asked he hl hw _ ih => exact .asked he hl hw (ih h')

/-- A walk may stop anywhere, and go on from there. -/
theorem split (h : Talk l e (ps ++ qs) l' e') : ∃ m d, Talk l e ps m d ∧ Talk m d qs l' e' := by
  induction ps generalizing l e with
  | nil => exact ⟨l, e, .nil l e, h⟩
  | cons p ps ih =>
    cases h with
    | spoke h =>
      obtain ⟨m, d, h, h'⟩ := ih h
      exact ⟨m, d, .spoke h, h'⟩
    | asked he hl hw h =>
      obtain ⟨m, d, h, h'⟩ := ih h
      exact ⟨m, d, .asked he hl hw h, h'⟩

/-- What was said is on the line, in order, and each wait has taken a piece of the input. -/
theorem outgoing_incoming (h : Talk l e ps l' e') (hc : l.ending = .closed) :
    l'.outgoing = l.outgoing ++ saidIn ps ∧ l'.ending = .closed ∧
      Line.pieces l'.incoming = (Line.pieces l.incoming).drop (waitsIn ps).length := by
  induction h with
  | nil => exact ⟨(List.append_nil _).symm, hc, rfl⟩
  | spoke _ ih =>
    obtain ⟨hout, hend, hin⟩ := ih hc
    exact ⟨hout.trans (List.append_assoc ..), hend, hin⟩
  | @asked l l' e e' bytes w kind ps he hl hw h ih =>
    have hclosed : w.line.ending = .closed := by rw [hl]; exact hc
    obtain ⟨incoming, hheard⟩ := w.line.hear_cases
    obtain ⟨hout, hend, hin⟩ := ih (by rw [hheard]; exact hclosed)
    refine ⟨?_, hend, ?_⟩
    · rw [hout, hheard, hl]
      exact List.append_assoc ..
    · rw [hin, (Line.pieces_hear hclosed).2, List.drop_tail, hl]
      rfl

/-- A run that is still waiting waits again at once, if the transcript goes on. -/
theorem waits_again {x : Execution} (h : Talk l (some x) ps l' e') : ps = [] ∨
    ∃ w after, ps = ⟨[], some w⟩ :: after ∧ w.execution = x := by
  cases h with
  | nil => exact .inl rfl
  | @asked _ _ _ _ bytes w kind ps he hl hw h =>
    obtain ⟨rfl, hx⟩ := he x rfl
    exact .inr ⟨w, ps, rfl, hx⟩

/-- **What a wait hears, and when.** Where the input ends behind its last byte, a wait comes when
all that was said before is on the line, and takes the piece of the input whose number is the number
of waits before. The run that waits is given that piece, and is aborted if there is none. A run that
wants a line that is not blank, and is given a blank one, is as before and waits again at once; any
other runs on. -/
theorem at_wait {before after : List Passage} {bytes : List UInt8} {w : Waiting}
    (h : Talk l e (before ++ ⟨bytes, some w⟩ :: after) l' e') (hc : l.ending = .closed) :
    w.line.outgoing = l.outgoing ++ saidIn (before ++ [⟨bytes, some w⟩]) ∧
    ∃ kind, w.execution.state = .suspended kind ∧
      match (Line.pieces l.incoming)[(waitsIn before).length]? with
      | none => w.heard = .closed ∧ w.next.state = .finished (.aborted .inputClosed)
      | some piece =>
        w.heard = .bytes piece ∧
        w.next = (w.execution.deliver (Utf8.decodeLossy piece)).execution ∧
        if kind = .required ∧ (trim (trimLineEnd (Utf8.decodeLossy piece))).isEmpty = true then
          w.next = w.execution ∧ (after = [] ∨
            ∃ w' rest, after = ⟨[], some w'⟩ :: rest ∧ w'.execution = w.execution)
        else w.next.state = .running := by
  obtain ⟨m, d, hbefore, hwait⟩ := h.split
  obtain ⟨hout, hend, hin⟩ := hbefore.outgoing_incoming hc
  cases hwait with
  | @asked _ _ _ _ _ _ kind _ he hl hw hafter =>
    have hclosed : w.line.ending = .closed := by rw [hl]; exact hend
    have hheard : w.heard =
        ((Line.pieces l.incoming)[(waitsIn before).length]?).elim .closed .bytes := by
      rw [Waiting.heard, (Line.pieces_hear hclosed).1, hl, ← List.head?_drop, ← hin]
      rfl
    refine ⟨?_, kind, hw.state, ?_⟩
    · rw [hl, Line.told, hout]
      simp [saidIn]
    cases hpiece : (Line.pieces l.incoming)[(waitsIn before).length]? with
    | none =>
      rw [hpiece] at hheard
      refine ⟨hheard, ?_⟩
      rw [hw.closed hheard, Execution.abort, hw.state]
      rfl
    | some piece =>
      rw [hpiece] at hheard
      have hnext := hw.bytes hheard
      have hgiven := w.execution.deliver_suspended hw.state (Utf8.decodeLossy piece)
      rw [← hnext] at hgiven
      refine ⟨hheard, hnext, ?_⟩
      split at hgiven
      · rename_i hblank
        rw [if_pos hblank]
        rw [hgiven, Execution.waiting?, hw.state] at hafter
        exact ⟨hgiven, hafter.waits_again⟩
      · rename_i hblank
        rw [if_neg hblank]
        exact hgiven

end Talk

/-! ### Turns -/

namespace Run

variable {disk : Disk} {facts : ChangingFacts} {r : Run}

/-- A run that waits for nobody after it was advanced leaves the line alone, and waits for nobody
before its next turn. -/
theorem respond_of_not_waiting (disk : Disk) (hl : r.line.IsOpen)
    (h : r.execution.waiting? = none) (hangupFirst : Bool) :
    (r.respond disk hangupFirst).line = r.line ∧
      (r.respond disk hangupFirst).execution.waiting? = none := by
  unfold respond
  split
  · exact ⟨rfl, h⟩
  · rw [hl.signal]
    exact ⟨rfl, h⟩
  · rename_i name hi
    unfold fetch receive
    dsimp only
    split
    · refine ⟨rfl, ?_⟩
      dsimp only [take]
      rw [Execution.enter, hi]
      rfl
    · refine ⟨rfl, ?_⟩
      dsimp only [take]
      rw [Execution.abort, hi]
      rfl
  · rename_i kind hw
    rw [Execution.waiting?, hw] at h
    cases h

theorem phase_listen (hg : r.phase = .going) (hangupFirst : Bool) :
    (r.listen hangupFirst).phase ≠ .over := by
  have hne : r.phase ≠ .over := by rw [hg]; decide
  unfold listen fallSilent
  dsimp only [take]
  split
  · exact hne
  · split
    · exact hne
    · exact hne
    · exact hne
    · split
      · exact fun h => by cases h
      · exact hne
      · exact hne

theorem respond_of_suspended {kind : Wait} (hw : r.execution.state = .suspended kind)
    (hangupFirst : Bool) : r.respond disk hangupFirst = r.listen hangupFirst := by
  unfold respond
  rw [hw]

theorem respond_of_waiting (disk : Disk) (hl : r.line.IsOpen) {kind : Wait}
    (hw : r.execution.state = .suspended kind) (hangupFirst : Bool) :
    (r.respond disk hangupFirst).line = r.line.hear.2 ∧
      Waiting.Heeds ⟨r.execution, r.line, (r.respond disk hangupFirst).execution⟩ kind := by
  have hnever : (hangupFirst && r.line.signal == .given) = false := by
    rw [hl.signal]
    cases hangupFirst <;> rfl
  rw [respond_of_suspended hw]
  unfold listen
  dsimp only
  rw [hnever, if_neg Bool.false_ne_true]
  refine ⟨?_, hw, fun {b} hb => ?_, fun hc => ?_⟩
  · split
    · rfl
    · rfl
    · rfl
    · unfold fallSilent
      rw [show ({ r with line := r.line.hear.2 } : Run).line.signal = .never from hl.hear.signal]
  · rw [show r.line.hear.1 = .bytes b from hb]
    rfl
  · rw [show r.line.hear.1 = .closed from hc]
    rfl

/-- On a line that takes everything, what a run says in a turn is put on the line. -/
theorem speak_of_isOpen (hl : r.line.IsOpen) (facts : ChangingFacts) : r.speak facts stepBudget =
    { (r.counted facts stepBudget).take (r.spoken facts) with
      line := r.line.told (r.spoken facts).bytes } :=
  utter_of_unbounded (r := r.counted facts stepBudget) hl.room hl.flushes _

/-- On a line that takes everything and is never hung up, a turn is a step of the walk. A run that
is over does not wait any more. -/
theorem talk_turn (disk : Disk) (facts : ChangingFacts) (hl : r.line.IsOpen) (hg : r.phase = .going)
    (hangupFirst : Bool) :
    Talk r.line r.execution.waiting? [r.passage disk facts hangupFirst]
      (r.turn disk facts hangupFirst).line (r.turn disk facts hangupFirst).execution.waiting? ∧
    (r.turn disk facts hangupFirst).line.IsOpen ∧
    ((r.turn disk facts hangupFirst).phase = .over →
      (r.turn disk facts hangupFirst).execution.waiting? = none) := by
  have hspeak := speak_of_isOpen hl facts
  have hgoing : (r.speak facts stepBudget).phase = .going := by rw [hspeak]; exact hg
  have hopen : (r.speak facts stepBudget).line.IsOpen := by
    rw [hspeak]
    exact ⟨hl.room, hl.flushes, hl.signal⟩
  have hline : (r.speak facts stepBudget).line = r.line.told (r.spoken facts).bytes := by
    rw [hspeak]
  -- a run that is still waiting says nothing and is as it was
  have hstill : ∀ x, r.execution.waiting? = some x →
      (r.spoken facts).bytes = [] ∧ (r.speak facts stepBudget).execution = x := by
    intro x hx
    obtain ⟨rfl, kind, hk⟩ := Execution.suspended_of_waiting? hx
    have hquiet : r.spoken facts = .quiet r.execution := by
      unfold spoken
      rw [Execution.proceed_of_ne_running (by rw [hk]; exact fun h => by cases h)]
    rw [hspeak, hquiet]
    exact ⟨rfl, rfl⟩
  unfold passage
  dsimp only
  rw [turn_of_going hg hgoing, hgoing]
  dsimp only
  cases hw : (r.speak facts stepBudget).execution.waiting? with
  | none =>
    obtain ⟨hsame, hnone⟩ := respond_of_not_waiting disk hopen hw hangupFirst
    have hfresh : r.execution.waiting? = none := by
      cases hr : r.execution.waiting? with
      | none => rfl
      | some x =>
        rw [(hstill x hr).2, (Execution.suspended_of_waiting? hr).1, hr] at hw
        cases hw
    rw [hnone, hsame, hfresh, hline]
    exact ⟨.spoke (.nil _ _), hline ▸ hopen, fun _ => rfl⟩
  | some x =>
    obtain ⟨rfl, kind, hk⟩ := Execution.suspended_of_waiting? hw
    obtain ⟨hheard, hheeds⟩ := respond_of_waiting disk hopen hk hangupFirst
    rw [hheard]
    refine ⟨.asked hstill hline hheeds (.nil _ _), hopen.hear, fun hover => ?_⟩
    rw [respond_of_suspended hk] at hover
    exact absurd hover (phase_listen hgoing hangupFirst)

theorem transcript_succ (hg : r.phase = .going) (races : Nat → Bool) (turns : Nat) :
    r.transcript disk facts races (turns + 1) = r.passage disk facts (races 0) ::
      (r.turn disk facts (races 0)).transcript disk facts (fun n => races (n + 1)) turns := by
  rw [transcript, hg]

theorem transcript_of_not_going (h : r.phase ≠ .going) (races : Nat → Bool) (turns : Nat) :
    r.transcript disk facts races turns = [] := by
  cases turns with
  | zero => rfl
  | succ turns =>
    unfold transcript
    split
    · contradiction
    · rfl

/-- Any number of turns is a walk through their transcript. -/
theorem talk_transcript (disk : Disk) (facts : ChangingFacts) (hl : r.line.IsOpen)
    (ho : r.phase = .over → r.execution.waiting? = none) (races : Nat → Bool) (turns : Nat) :
    Talk r.line r.execution.waiting? (r.transcript disk facts races turns)
      (r.drive disk facts races turns).line (r.drive disk facts races turns).execution.waiting? ∧
    (r.drive disk facts races turns).line.IsOpen ∧
    ((r.drive disk facts races turns).phase = .over →
      (r.drive disk facts races turns).execution.waiting? = none) := by
  induction turns generalizing r races with
  | zero => exact ⟨.nil _ _, hl, ho⟩
  | succ turns ih =>
    by_cases hg : r.phase = .going
    · obtain ⟨hturn, hline, hover⟩ := talk_turn disk facts hl hg (races 0)
      obtain ⟨hrest, hlast⟩ := ih hline hover (fun n => races (n + 1))
      rw [transcript_succ hg, drive_succ hg]
      exact ⟨hturn.append hrest, hlast⟩
    · rw [transcript_of_not_going hg, drive_of_not_going hg]
      exact ⟨.nil _ _, hl, ho⟩

end Run

end BulletinBoard
