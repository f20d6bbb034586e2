/-
# Sessions

A caller's way through the screens of the board. The answer given at the login screen becomes the
caller's name. A caller whose template quits, hangs up or is aborted is disconnected, and so is one
who has been through the main menu.

Key definitions: `Screen`, `Session`, `Session.start`, `Session.login`, `Session.logout`,
`Session.advance`.
-/
import BulletinBoard.Clock
import BulletinBoard.Run.Conduct
import BulletinBoard.Settings.Basic

namespace BulletinBoard

open Text

/-- The screen a caller is at. -/
inductive Screen where
  | connect
  | login
  | mainMenu
  | disconnected
  deriving DecidableEq, Repr

namespace Screen

/-- The name of a screen. -/
def name : Screen → String
  | connect => "Connect"
  | login => "Login"
  | mainMenu => "MainMenu"
  | disconnected => "Disconnected"

/-- The template of a screen. -/
def template? (screens : Screens) : Screen → Option String
  | connect => some screens.connect
  | login => some screens.login
  | mainMenu => some screens.mainMenu
  | disconnected => none

end Screen

/-- One caller. -/
structure Session where
  node : Nat
  peer : String
  user : Option String
  level : Nat
  loginTime : Moment
  /-- The length of the call in minutes. -/
  timeLimit : Nat
  ansi : Bool
  helpLevel : String
  screen : Screen
  deriving DecidableEq, Repr

namespace Session

/-- A caller who has just connected. -/
def start (node : Nat) (peer : String) (timeLimit : Nat) (now : Moment) : Session where
  node := node
  peer := peer
  user := none
  level := 0
  loginTime := now
  timeLimit := timeLimit
  ansi := true
  helpLevel := "regular"
  screen := .connect

/-- Gives the caller a name and a level. -/
def login (s : Session) (user : String) (level : Nat) : Session :=
  { s with user := some user, level }

/-- Takes name and level from the caller and disconnects. -/
def logout (s : Session) : Session :=
  { s with user := none, level := 0, screen := .disconnected }

/-- Whether the caller has a name. -/
def isLoggedIn (s : Session) : Bool :=
  s.user.isSome

@[simp] theorem isLoggedIn_logout (s : Session) : s.logout.isLoggedIn = false := rfl

@[simp] theorem isLoggedIn_login (s : Session) (user : String) (level : Nat) :
    (s.login user level).isLoggedIn = true := rfl

/-- The caller's name, or the name of those who have none. -/
def displayName (s : Session) : String :=
  s.user.getD "Guest"

/-- The name an answer gives: the answer without the white space around it, if anything is left. -/
def nameIn? (response : Option String) : Option String :=
  match response.map trim with
  | some name => if name.isEmpty then none else some name
  | none => none

/-- Whether an outcome lets the caller go on to the next screen. -/
def lets : Outcome → Bool
  | .completed | .halted .exit => true
  | .halted _ | .aborted _ => false

/-- Goes on after the template of a screen has ended. -/
def advance (s : Session) (report : Report) (defaultLevel : Nat) : Session :=
  if lets report.outcome then
    match s.screen with
    | .connect => { s with screen := .login }
    | .login =>
      match nameIn? report.response with
      | some name => { s.login name defaultLevel with screen := .mainMenu }
      | none => { s with screen := .mainMenu }
    | .mainMenu | .disconnected => s.logout
  else s.logout

end Session

end BulletinBoard
