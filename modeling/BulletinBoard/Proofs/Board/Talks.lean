/-
# What is said and heard in a call

A call is shown its screens on one line. What is not read at one screen is there to be read at the
next, and what one says is sent before the next begins, so the walks through the transcripts of the
screens are one walk from the line as it was at first (`talk_transcript`). Where the input ends
behind its last byte, it is heard piece by piece, each piece by one wait and in order, and every
wait comes when all that was said before is on the line.

Key definitions: `Board.Visit.passages`, `Board.transcript`.
Key theorems: `Board.talk_transcript`, `Board.hears_piece_by_piece`.
-/
import BulletinBoard.Proofs.Board.Visits
import BulletinBoard.Proofs.Run.Transcript

namespace BulletinBoard.Board

open Text Template

/-- What is said and heard at the next screen. -/
def Visit.passages (around : Surroundings) (v : Visit) : List Passage :=
  match v.template? with
  | none => []
  | some template =>
    match Run.begin around.disk v.board.settings.display.charset v.board.store v.line template with
    | .inl r => r.transcript around.disk (v.facts around) around.races around.turns
    | .inr _ => []

/-- What is said and heard in a call that is shown at most so many screens. -/
def transcript (around : Surroundings) (screens : Nat) (v : Visit) : List Passage :=
  (shown around screens v).flatMap (Visit.passages around)

variable {around : Surroundings} {v w : Visit} {template : String}

/-- A screen is a walk from the line of the call, and if it is over, to the line it leaves. -/
theorem talk_passages (around : Surroundings) (hl : v.line.IsOpen)
    (ht : v.template? = some template) :
    ∃ l e, Talk v.line none (v.passages around) l e ∧
      ∀ w, showScreen around v template = some w → w.line = l ∧ e = none ∧ l.IsOpen := by
  have hconducted : ∀ w, showScreen around v template = some w →
      ∃ c, v.conducted? around template = some c ∧ w.line = c.line := fun w h => by
    obtain ⟨c, hc, -, hline, -⟩ := showScreen_eq_some h
    exact ⟨c, hc, hline⟩
  unfold Visit.conducted? conduct at hconducted
  unfold Visit.passages
  rw [ht]
  dsimp only
  unfold Run.begin at hconducted ⊢
  cases hreply : (v.board.store.getOrLoad around.disk template).result with
  | error e =>
    rw [Run.opening_of_error hreply] at hconducted ⊢
    refine ⟨v.line, none, .nil _ _, fun w hw => ?_⟩
    obtain ⟨c, hc, hline⟩ := hconducted w hw
    cases hc
    exact ⟨hline, rfl, hl⟩
  | ok t =>
    rw [Run.opening_of_ok hreply] at hconducted ⊢
    obtain ⟨htalk, hopen, hover⟩ := Run.talk_transcript around.disk (v.facts around)
      (show (Run.mk (.start t v.board.settings.display.charset)
        (v.board.store.getOrLoad around.disk template).store v.line
        (v.board.store.getOrLoad around.disk template).log .going 0).line.IsOpen from hl)
      (fun _ => rfl) around.races around.turns
    refine ⟨_, _, htalk, fun w hw => ?_⟩
    obtain ⟨c, hc, hline⟩ := hconducted w hw
    obtain ⟨hphase, rfl⟩ := Run.over_of_conducted? hc
    exact ⟨hline, hover hphase, hopen⟩

theorem transcript_succ (ht : v.template? = some template) (screens : Nat) :
    transcript around (screens + 1) v = v.passages around ++
      ((showScreen around v template).map (transcript around screens)).getD [] := by
  unfold transcript
  rw [shown_succ ht, List.flatMap_cons]
  cases showScreen around v template <;> rfl

theorem transcript_of_disconnected (h : v.session.screen = .disconnected) (screens : Nat) :
    transcript around screens v = [] := by
  unfold transcript
  rw [shown_of_disconnected h]
  rfl

/-- Any number of screens is a walk through their transcript, and if they are over, to the line they
leave. -/
theorem talk_transcript (around : Surroundings) (hl : v.line.IsOpen) (screens : Nat) :
    ∃ l e, Talk v.line none (transcript around screens v) l e ∧
      ∀ w, visit around screens v = some w → w.line = l := by
  induction screens generalizing v with
  | zero => exact ⟨v.line, none, .nil _ _, fun w hw => by cases hw; rfl⟩
  | succ screens ih =>
    rcases disconnected_or_template v with hd | ⟨template, ht⟩
    · rw [transcript_of_disconnected hd, visit_of_disconnected hd]
      exact ⟨v.line, none, .nil _ _, fun w hw => by cases hw; rfl⟩
    · obtain ⟨l, e, htalk, hover⟩ := talk_passages around hl ht
      rw [transcript_succ ht, visit_succ ht]
      cases hu : showScreen around v template with
      | none =>
        rw [Option.map_none, Option.getD_none, List.append_nil]
        exact ⟨l, e, htalk, fun w hw => by cases hw⟩
      | some u =>
        obtain ⟨rfl, rfl, hopen⟩ := hover u hu
        obtain ⟨l', e', hrest, hlast⟩ := ih hopen
        exact ⟨l', e', htalk.append hrest, hlast⟩

/-- **The caller is heard piece by piece.** On a line that takes everything and is never hung up, and
whose input ends behind its last byte, the input is heard in pieces that end with their only line
feed, but for the last, which may lack it. Every wait of a call comes when all that was said before
is on the line, and takes the piece whose number is the number of waits before it, on whatever
screen and in whatever template they came. The run that waits is given that piece, and is aborted if
there is none. One that wants a line that is not blank, and is given a blank one, is as before and
waits again at once; any other runs on.

When the call is over, all that was said is on the line, and the pieces are left that no wait
took. -/
theorem hears_piece_by_piece (around : Surroundings) (b : Board) (peer : String) {line : Line}
    (hl : line.IsOpen) (hc : line.ending = .closed) :
    ((Line.pieces line.incoming).flatten = line.incoming ∧
      ∀ before piece after, Line.pieces line.incoming = before ++ piece :: after →
        ∃ text, Line.lineFeed ∉ text ∧
          (piece = text ++ [Line.lineFeed] ∨ piece = text ∧ text ≠ [] ∧ after = [])) ∧
    (∀ before bytes w after,
      transcript around screenCount (arrival around b peer line) =
          before ++ ⟨bytes, some w⟩ :: after →
        w.line.outgoing = line.outgoing ++ saidIn (before ++ [⟨bytes, some w⟩]) ∧
        ∃ kind, w.execution.state = .suspended kind ∧
          match (Line.pieces line.incoming)[(waitsIn before).length]? with
          | none => w.heard = .closed ∧ w.next.state = .finished (.aborted .inputClosed)
          | some piece =>
            w.heard = .bytes piece ∧
            w.next = (w.execution.deliver (Utf8.decodeLossy piece)).execution ∧
            if kind = .required ∧ (trim (trimLineEnd (Utf8.decodeLossy piece))).isEmpty = true then
              w.next = w.execution ∧ (after = [] ∨
                ∃ w' rest, after = ⟨[], some w'⟩ :: rest ∧ w'.execution = w.execution)
            else w.next.state = .running) ∧
    ∀ v, call around b peer line = some v →
      v.line.outgoing =
        line.outgoing ++ saidIn (transcript around screenCount (arrival around b peer line)) ∧
      Line.pieces v.line.incoming = (Line.pieces line.incoming).drop
        (waitsIn (transcript around screenCount (arrival around b peer line))).length := by
  obtain ⟨l, e, htalk, hlast⟩ :=
    talk_transcript around (show (arrival around b peer line).line.IsOpen from hl) screenCount
  refine ⟨⟨Line.flatten_pieces _, fun before piece after => Line.lineFeed_piece⟩,
    fun before bytes w after hsplit => ?_, fun v hv => ?_⟩
  · exact Talk.at_wait (hsplit ▸ htalk) hc
  · obtain ⟨hout, -, hin⟩ := htalk.outgoing_incoming hc
    rw [hlast v hv]
    exact ⟨hout, hin⟩

/-! ### A caller who says nothing at first -/

/-- A lobby where the name must be given. -/
def strictEvening : Surroundings :=
  { evening with
    disk := ⟨.file "logo.mec" (Utf8.encode "Hi ") <| .file "login.mec" (Utf8.encode "[ansreq]") <|
      .file "menu.mec" [] .empty, []⟩ }

/-- The line of a caller who sends a blank line, and then a name without a line feed. -/
def hesitantLine : Line := { namedLine "" with incoming := Utf8.encode "\nAda" }

/-- The greeting is on the line when the blank line is read, and the name is read after it. -/
theorem hears_piece_by_piece_hesitant :
    hesitantLine.IsOpen ∧ hesitantLine.ending = .closed ∧
    ∃ p w w' after, transcript strictEvening screenCount
        (arrival strictEvening lobby "10.0.0.1" hesitantLine) =
          p :: ⟨[], some w⟩ :: ⟨[], some w'⟩ :: after ∧
      w.line.outgoing = Utf8.encode "Hi " ∧ w.heard = .bytes [Line.lineFeed] ∧
      w'.heard = .bytes (Utf8.encode "Ada") := by
  have hl : hesitantLine.IsOpen := ⟨rfl, rfl, rfl⟩
  have hc : hesitantLine.ending = .closed := rfl
  have hpieces : Line.pieces hesitantLine.incoming = [[Line.lineFeed], Utf8.encode "Ada"] := by
    decide
  have hshape : (transcript strictEvening screenCount
      (arrival strictEvening lobby "10.0.0.1" hesitantLine)).map
        (fun p => (p.said, p.wait?.isSome)) =
      [(Utf8.encode "Hi ", false), ([], true), ([], true), ([], false), ([], false)] := by
    decide +kernel
  obtain ⟨⟨greeting, _ | _⟩, ps, htranscript, hgreeting, hps⟩ := List.map_eq_cons_iff.mp hshape
  case some => cases hgreeting
  obtain ⟨⟨_, _ | w⟩, qs, rfl, hw, hqs⟩ := List.map_eq_cons_iff.mp hps
  case none => cases hw
  obtain ⟨⟨_, _ | w'⟩, after, rfl, hw', -⟩ := List.map_eq_cons_iff.mp hqs
  case none => cases hw'
  cases hgreeting
  cases hw
  cases hw'
  obtain ⟨-, hwaits, -⟩ := hears_piece_by_piece strictEvening lobby "10.0.0.1" hl hc
  obtain ⟨hout, _, -, hfirst⟩ := hwaits [⟨Utf8.encode "Hi ", none⟩] [] w _ htranscript
  obtain ⟨-, _, -, hsecond⟩ :=
    hwaits [⟨Utf8.encode "Hi ", none⟩, ⟨[], some w⟩] [] w' after htranscript
  rw [hpieces] at hfirst hsecond
  exact ⟨hl, hc, _, w, w', after, htranscript, hout, hfirst.1, hsecond.1⟩

end BulletinBoard.Board
