/-
# The board

The templates and settings that all calls share, and what is remembered of the calls before. A call
is taken through its screens one after the other, on one line. Who logs in is remembered as soon as
the login screen is left.

Key definitions: `Board`, `Board.open?`, `Board.visit`, `Board.call`.
-/
import BulletinBoard.Session.Facts

namespace BulletinBoard

open Text

/-- A board between two calls. -/
structure Board where
  settings : Settings
  store : Store
  /-- How many calls came so far. -/
  calls : Nat
  /-- Who logged in last. -/
  lastUser : Option String

/-- What a call happens in: the files, the clock since it came, how races between a line and the
hangup signal end, and how many turns a run may take. -/
structure Surroundings where
  disk : Disk
  now : Clock
  races : Nat → Bool
  turns : Nat

namespace Board

/-- A board with its first templates, if they are to be loaded at the start. -/
def open? (disk : Disk) (settings : Settings) : Except ReadError (Board × Log) :=
  let store := Store.empty (some settings.display.templateRoot)
  if settings.display.preload then
    let census := store.loadAll disk
    match census.stopped with
    | some e => .error e
    | none => .ok (⟨settings, census.store, 0, none⟩, census.log)
  else .ok (⟨settings, store, 0, none⟩, .empty)

/-- A call between two screens. -/
structure Visit where
  board : Board
  session : Session
  line : Line
  log : Log
  /-- How many steps were made since the call came. -/
  steps : Nat

/-- What the templates of the screen are answered at each step: of the session and of earlier calls
as they were when the screen began, and of the time as it is. -/
def Visit.facts (around : Surroundings) (v : Visit) : ChangingFacts := fun n =>
  v.session.facts v.board.settings.identity ⟨v.board.lastUser, v.board.calls⟩
    (around.now (v.steps + n))

/-- Who is remembered as the last user after a screen: the caller if the screen logged the caller
in, and the call goes on. -/
def remember (before after : Session) (lastUser : Option String) : Option String :=
  if !before.isLoggedIn && after.isLoggedIn then after.user else lastUser

/-- Takes a call through the screen it is at. There is no answer if the run is not over in time. -/
def showScreen (around : Surroundings) (v : Visit) (template : String) : Option Visit :=
  match conduct around.disk (v.facts around) around.races around.turns
      v.board.settings.display.charset v.board.store v.line template with
  | none => none
  | some c =>
    let session := v.session.advance c.report v.board.settings.identity.defaultLevel
    some {
      board := { v.board with
        store := c.store
        lastUser := remember v.session session v.board.lastUser }
      session := session
      line := c.line
      log := v.log ++ c.log
      steps := v.steps + c.steps }

/-- Takes a call through at most so many screens. -/
def visit (around : Surroundings) : Nat → Visit → Option Visit
  | 0, v => some v
  | screens + 1, v =>
    match v.session.screen.template? v.board.settings.display.screens with
    | none => some v
    | some template => (showScreen around v template).bind (visit around screens)

/-- The screens a call can be at before it is disconnected. -/
def screenCount : Nat := 3

/-- Takes a call from a peer. -/
def call (around : Surroundings) (b : Board) (peer : String) (line : Line) : Option Visit :=
  let board := { b with calls := b.calls + 1 }
  let session := Session.start board.calls peer b.settings.service.sessionTimeout (around.now 0)
  visit around screenCount ⟨board, session, line, .empty, 0⟩

end Board

end BulletinBoard
