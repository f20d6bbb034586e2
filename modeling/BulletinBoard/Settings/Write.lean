/-
# Writing settings

The document that holds given settings: a table for each group, with an empty line between groups.

Key definitions: `Settings.document`.
-/
import BulletinBoard.Settings.Basic

namespace BulletinBoard

open Text

/-- The name of a character set in settings. -/
def charsetName : Charset → String
  | .utf8 => "utf8"
  | .cp437 => "cp437"

/-- A character inside a quoted value. -/
def escapeValueChar (c : Char) : List Char :=
  if c = '\x22' ∨ c = '\\' then ['\\', c]
  else if c.toNat < 0x20 ∨ c.toNat = 0x7F then
    ['\\', 'u', '0', '0', Nat.digitChar (c.toNat / 16), Nat.digitChar (c.toNat % 16)]
  else [c]

/-- A quoted value. -/
def quoteValue (s : String) : String :=
  String.ofList ('\x22' :: s.toList.flatMap escapeValueChar ++ ['\x22'])

/-- A line with a text. -/
def textLine (key value : String) : String := key ++ " = " ++ quoteValue value ++ "\n"

/-- A line with a number. -/
def numberLine (key : String) (value : Nat) : String := key ++ " = " ++ toString value ++ "\n"

/-- A line with a yes or no. -/
def flagLine (key : String) (value : Bool) : String := key ++ " = " ++ toString value ++ "\n"

/-- The document that holds the settings. -/
def Settings.document (s : Settings) : String :=
  "[bbs]\n" ++
  textLine "name" s.identity.name ++
  textLine "sysop" s.identity.sysop ++
  textLine "location" s.identity.location ++
  numberLine "default_level" s.identity.defaultLevel ++
  "\n[server]\n" ++
  textLine "bind" s.service.bind ++
  numberLine "max_sessions" s.service.maxSessions ++
  numberLine "session_timeout" s.service.sessionTimeout ++
  "\n[mecca]\n" ++
  textLine "template_root" s.display.templateRoot ++
  textLine "charset" (charsetName s.display.charset) ++
  flagLine "preload" s.display.preload ++
  "\n[mecca.screens]\n" ++
  textLine "connect" s.display.screens.connect ++
  textLine "login" s.display.screens.login ++
  textLine "main_menu" s.display.screens.mainMenu ++
  "\n[logging]\n" ++
  textLine "level" s.logging.level ++
  (match s.logging.file with
    | some file => textLine "file" file
    | none => "")

end BulletinBoard
