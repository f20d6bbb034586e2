/-
# Reading settings

Settings are read from a TOML document. Each group of settings is a table, or a list that gives its
values in order. Some settings may be left out; what is not known is passed over.

Key definitions: `Group`, `Settings.ofDocument?`, `Settings.load`.
-/
import BulletinBoard.Files.Disk
import BulletinBoard.Settings.Basic
import BulletinBoard.Text.Numeral
import BulletinBoard.Toml.Document

namespace BulletinBoard

open Text Toml

/-! ### Single values -/

/-- A text. -/
def textOf? : Node → Option String
  | .string text => some text
  | _ => none

/-- A yes or no. -/
def flagOf? : Node → Option Bool
  | .boolean b => some b
  | _ => none

/-- A whole number of at least zero and at most `greatest`. -/
def numberOf? (greatest : Nat) : Node → Option Nat
  | .integer (.ofNat n) => if n ≤ greatest then some n else none
  | _ => none

/-- The character set of a name. -/
def charsetNamed? (name : String) : Option Charset :=
  if name = "utf8" then some .utf8
  else if name = "cp437" then some .cp437
  else none

/-- Whether a value is an empty table or an empty list. -/
def isBlankNode : Node → Bool
  | .table _ [] => true
  | .array [] => true
  | _ => false

/-- A character set: its name, or a table with the name as its only key and nothing in it. -/
def charsetOf? : Node → Option Charset
  | .string name => charsetNamed? name
  | .table _ [(name, value)] => if isBlankNode value then charsetNamed? name else none
  | _ => none

/-! ### Groups -/

/-- The values of a group of settings: by name, or in order. -/
inductive Group where
  | named (entries : List (String × Node))
  | listed (items : List Node)

namespace Group

/-- The group a value gives. -/
def ofNode? : Node → Option Group
  | .table _ entries => some (named entries)
  | .array items => some (listed items)
  | .tables items => some (listed items)
  | _ => none

/-- The value of a setting, given its position and its name. -/
def value? (g : Group) (position : Nat) (name : String) : Option Node :=
  match g with
  | named entries => entries.lookup name
  | listed items => items[position]?

/-- A setting that must be there. -/
def required (g : Group) (position : Nat) (name : String) (read : Node → Option α) : Option α :=
  (g.value? position name).bind read

/-- A setting that may be left out. -/
def orElse (g : Group) (position : Nat) (name : String) (read : Node → Option α) (standard : α) :
    Option α :=
  match g.value? position name with
  | none => some standard
  | some value => read value

/-- A setting that a group given by name may lack, and a group given in order may not. -/
def optional (g : Group) (position : Nat) (name : String) (read : Node → Option α) :
    Option (Option α) :=
  match g.value? position name, g with
  | some value, _ => (read value).map some
  | none, named _ => some none
  | none, listed _ => none

end Group

/-- The group at a value, read as a whole. -/
def group? (read : Group → Option α) (value : Node) : Option α :=
  (Group.ofNode? value).bind read

/-! ### The settings -/

/-- Reads the identity of a board. -/
def Identity.ofGroup? (g : Group) : Option Identity := do
  some {
    name := ← g.required 0 "name" textOf?
    sysop := ← g.required 1 "sysop" textOf?
    location := ← g.required 2 "location" textOf?
    defaultLevel := ← g.orElse 3 "default_level" (numberOf? Numeral.max16) Privilege.normal }

/-- Reads where a board listens, and for whom. -/
def Service.ofGroup? (g : Group) : Option Service := do
  some {
    bind := ← g.required 0 "bind" textOf?
    maxSessions := ← g.required 1 "max_sessions" (numberOf? Numeral.max64)
    sessionTimeout := ← g.required 2 "session_timeout" (numberOf? Numeral.max32) }

/-- Reads the templates of the screens. -/
def Screens.ofGroup? (g : Group) : Option Screens := do
  some {
    connect := ← g.required 0 "connect" textOf?
    login := ← g.required 1 "login" textOf?
    mainMenu := ← g.required 2 "main_menu" textOf? }

/-- Reads where the templates are and how they are sent. -/
def Display.ofGroup? (g : Group) : Option Display := do
  some {
    templateRoot := ← g.required 0 "template_root" textOf?
    charset := ← g.orElse 1 "charset" charsetOf? .utf8
    preload := ← g.orElse 2 "preload" flagOf? false
    screens := ← g.orElse 3 "screens" (group? Screens.ofGroup?) .standard }

/-- Reads what is logged, and where. -/
def Logging.ofGroup? (g : Group) : Option Logging := do
  some {
    level := ← g.required 0 "level" textOf?
    file := ← g.optional 1 "file" textOf? }

/-- Reads all settings. -/
def Settings.ofGroup? (g : Group) : Option Settings := do
  some {
    identity := ← g.required 0 "bbs" (group? Identity.ofGroup?)
    service := ← g.required 1 "server" (group? Service.ofGroup?)
    display := ← g.required 2 "mecca" (group? Display.ofGroup?)
    logging := ← g.required 3 "logging" (group? Logging.ofGroup?) }

/-- Reads the settings in a document. -/
def Settings.ofDocument? (source : String) : Option Settings := do
  Settings.ofGroup? (.named (← document? source).entries)

/-- Why settings could not be loaded. -/
inductive SettingsError where
  /-- The file cannot be read. -/
  | unreadable (e : ReadError)
  /-- The file is no document, or lacks settings. -/
  | invalid
  deriving DecidableEq, Repr

/-- Loads the settings from a file. -/
def Settings.load (disk : Disk) (path : String) : Except SettingsError Settings :=
  match disk.readText path with
  | .error e => .error (.unreadable e)
  | .ok source =>
    match Settings.ofDocument? source with
    | some s => .ok s
    | none => .error .invalid

end BulletinBoard
