/-
# Settings

What the operator of a board decides: the board's identity, its limits, its templates, and its log.

Key definitions: `Settings`, `Settings.standard`.
-/
import BulletinBoard.Privilege
import BulletinBoard.Text.Charset

namespace BulletinBoard

open Text

/-- Who the board is. -/
structure Identity where
  name : String
  sysop : String
  location : String
  /-- The privilege level of callers who have logged in. -/
  defaultLevel : Nat
  deriving DecidableEq, Repr

/-- Where the board listens, and for whom. -/
structure Service where
  bind : String
  maxSessions : Nat
  /-- The length of a call in minutes. -/
  sessionTimeout : Nat
  deriving DecidableEq, Repr

/-- The templates of the screens a call walks through. -/
structure Screens where
  connect : String
  login : String
  mainMenu : String
  deriving DecidableEq, Repr

/-- Where the templates are and how they are sent. -/
structure Display where
  templateRoot : String
  charset : Charset
  /-- Whether all templates are loaded at the start. -/
  preload : Bool
  screens : Screens
  deriving DecidableEq, Repr

/-- What is logged, and where. -/
structure Logging where
  level : String
  file : Option String
  deriving DecidableEq, Repr

/-- All settings. -/
structure Settings where
  identity : Identity
  service : Service
  display : Display
  logging : Logging
  deriving DecidableEq, Repr

/-- The screens of a board that names no others. -/
def Screens.standard : Screens := ⟨"misc/logo", "misc/login", "misc/main_menu"⟩

/-- The settings of a new board. -/
def Settings.standard : Settings where
  identity := ⟨"MeccaBBS Station", "sysop", "Your Location", Privilege.normal⟩
  service := ⟨"127.0.0.1:2323", 16, 10⟩
  display := ⟨"./templates", .utf8, false, .standard⟩
  logging := ⟨"info", some "meccabbs.log"⟩

end BulletinBoard
