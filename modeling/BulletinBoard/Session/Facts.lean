/-
# What a session knows

The facts of a call: those of the board from its settings, those of the caller from the session, and
those of earlier calls from the call log.

Key definitions: `History`, `Session.facts`.
-/
import BulletinBoard.Session.Basic

namespace BulletinBoard

open Text

/-- What the board remembers of earlier calls when a screen begins. -/
structure History where
  lastUser : Option String
  calls : Nat
  deriving DecidableEq, Repr

/-- Nothing remembered. -/
def History.none : History := ⟨Option.none, 0⟩

namespace Session

/-- Whether a peer is this machine. -/
def isLocal (peer : String) : Bool :=
  "127.".toList.isPrefixOf peer.toList || "[::1]".toList.isPrefixOf peer.toList

/-- The whole minutes since the caller connected. -/
def minutesOnline (s : Session) (now : Moment) : Nat :=
  minutesBetween s.loginTime now

/-- The answers to a template's questions at a moment of a call. -/
def facts (identity : Identity) (history : History) (now : Moment) (s : Session) : Facts
  | .systemName => some identity.name
  | .sysopName => some identity.sysop
  | .userName | .realName => s.user
  | .firstName => s.user.bind firstWord?
  | .city => some identity.location
  | .date => some now.civil.shortDate
  | .time => some now.civil.timeOfDay
  | .nodeNumber => some (toString s.node)
  | .ipAddress => some s.peer
  | .lastUser => history.lastUser
  | .minutesOnline => some (toString (s.minutesOnline now))
  | .minutesRemaining => some (toString (s.timeLimit - s.minutesOnline now))
  | .timeOff => some (s.loginTime.afterMinutes s.timeLimit).civil.hourMinute
  | .systemCalls => some (toString history.calls)
  | .privilegeLevel => some (toString s.level)
  | .helpLevel => some s.helpLevel
  | .graphics => some (if s.ansi then "ansi" else "tty")
  | .locality => some (if isLocal s.peer then "local" else "remote")
  | .phone | .lastCall | .userCalls | .uploads | .downloads | .ratio | .messageArea | .fileArea =>
    none

end Session

end BulletinBoard
