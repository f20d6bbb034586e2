/-
# Carrying out commands

What each command reads, prints and writes, and the code it exits with.

Key definitions: `Result`, `check`, `writeSettings`, `render`, `status`, `startBoard`, `execute`.
-/
import BulletinBoard.Board.Basic
import BulletinBoard.CommandLine.Read
import BulletinBoard.Json
import BulletinBoard.Settings.Read
import BulletinBoard.Settings.Write

namespace BulletinBoard.CommandLine

open Text

/-- What a command leaves behind. -/
structure Result where
  code : Nat
  output : List UInt8
  disk : Disk
  /-- The files that were written. -/
  saved : List (String × List UInt8)

namespace Result

/-- A command that did what it was asked to. -/
def success (disk : Disk) (output : List UInt8) : Result := ⟨0, output, disk, []⟩

/-- A command that failed. -/
def failure (disk : Disk) (output : List UInt8) : Result := ⟨1, output, disk, []⟩

/-- Arguments that are not in order. -/
def misuse (disk : Disk) : Result := ⟨2, [], disk, []⟩

end Result

/-! ### check -/

/-- The last part of a path without its ending, if it names something. -/
def fileStem? (path : String) : Option String :=
  match ((Disk.partsOf path).filter fun p => p != "" && p != ".").getLast? with
  | none => none
  | some file =>
    if file = ".." then none
    else
      match Store.splitExtension? file with
      | some (stem, _) => some stem
      | none => some file

/-- The report on a source that compiled. -/
def passReport (name : String) (t : Template) : Json :=
  .object [
    ("instructions", .number t.size),
    ("labels", .list (t.labels.map fun (label, position) =>
      .object [("index", .number position), ("name", .string label)])),
    ("status", .string "ok"),
    ("template", .string name)]

/-- The report on a source that did not compile. -/
def failReport (name : String) (e : CompileError) : Json :=
  .object [
    ("error", .string e.message), ("status", .string "error"), ("template", .string name)]

/-- A report as output. -/
def printReport (report : Json) : List UInt8 :=
  Utf8.encode (report.pretty 0 ++ "\n")

/-- Compiles a file and reports on it. -/
def check (disk : Disk) (file : String) : Result :=
  match disk.readText file with
  | .error _ => .failure disk []
  | .ok source =>
    let name := (fileStem? file).getD "template"
    match Template.compile name source with
    | .ok t => .success disk (printReport (passReport name t))
    | .error e => .failure disk (printReport (failReport name e))

/-! ### init -/

/-- Writes the settings of a new board. -/
def writeSettings (disk : Disk) (path : String) : Result :=
  let content := Utf8.encode Settings.standard.document
  match disk.save path content with
  | .error _ => .failure disk []
  | .ok disk => ⟨0, [], disk, [(path, content)]⟩

/-! ### render -/

/-- The caller a rendered template sees. -/
def renderSession (settings : Settings) (user : String) (now : Moment) : Session :=
  (Session.start 0 "127.0.0.1" settings.service.sessionTimeout now).login user Privilege.sysop

/-- Runs a template against the terminal. -/
def render (around : Surroundings) (settings : Settings) (name user : String)
    (input : List UInt8) : Result :=
  let session := renderSession settings user (around.now 0)
  let facts (n : Nat) : Facts := session.facts settings.identity .none (around.now n)
  let line : Line :=
    { incoming := input, ending := .closed, room := none, flushes := none, refusal := "",
      outgoing := [], signal := .never }
  let store := Store.empty (some settings.display.templateRoot)
  match conduct around.disk facts around.races around.turns settings.display.charset store line
      name with
  | none => .failure around.disk []
  | some c =>
    match c.report.outcome with
    | .aborted _ => .failure around.disk c.line.outgoing
    | _ => .success around.disk c.line.outgoing

/-! ### status -/

/-- The lines about the templates, if every folder of templates could be listed. -/
def templateLines (settings : Settings) (census : Store.Census) : String :=
  match census.stopped with
  | none =>
    "Template Root: " ++ settings.display.templateRoot ++ "\nTemplates: " ++
      toString census.compiled ++ " compiled, " ++ toString census.failed ++ " failed\n"
  | some _ => ""

/-- The line about a screen. -/
def screenLine (settings : Settings) (store : Store) (screen : Screen) : String :=
  match screen.template? settings.display.screens with
  | some name =>
    "Screen " ++ screen.name ++ ": " ++ name ++ " [" ++
      (if store.contains name then "ok" else "MISSING") ++ "]\n"
  | none => ""

/-- The state of a board, its templates loaded. -/
def statusText (disk : Disk) (board : Board) : String :=
  let settings := board.settings
  let census := board.store.loadAll disk
  "=== MeccaBBS Status ===\nBBS Name: " ++ settings.identity.name ++
    "\nSysop: " ++ settings.identity.sysop ++
    "\nLocation: " ++ settings.identity.location ++
    "\nListen Address: " ++ settings.service.bind ++
    "\nMax Sessions: " ++ toString settings.service.maxSessions ++ "\n" ++
    templateLines settings census ++
    "".intercalate ([Screen.connect, .login, .mainMenu].map (screenLine settings census.store))

/-- Prints the state of the board. -/
def status (disk : Disk) (settings : Settings) : Result :=
  match Board.open? disk settings with
  | .error _ => .failure disk []
  | .ok (board, _) => .success disk (Utf8.encode (statusText disk board))

/-! ### start -/

/-- Opens the log file of the settings, which makes it if it is not there. -/
def openLog (disk : Disk) (settings : Settings) : Disk × List (String × List UInt8) :=
  match settings.logging.file with
  | none => (disk, [])
  | some file =>
    match disk.read file with
    | .error .missing =>
      match disk.save file [] with
      | .ok d => (d, [(file, [])])
      | .error _ => (disk, [])
    | _ => (disk, [])

/-- Makes a board ready to listen. Nothing here can listen, so the command fails in any case. -/
def startBoard (disk : Disk) (settings : Settings) : Result :=
  let (disk, saved) := openLog disk settings
  ⟨1, [], disk, saved⟩

/-! ### All commands -/

/-- Carries out a command. Rendering goes on with the settings of a new board where there are no
others, and checking and initializing need none. -/
def execute (around : Surroundings) (config : String) (command : Command) (input : List UInt8) :
    Result :=
  let disk := around.disk
  let loaded := Settings.load disk config
  match command with
  | .check file => check disk file
  | .init => writeSettings disk config
  | .render name user =>
    let settings := match loaded with
      | .ok s => s
      | .error _ => Settings.standard
    render around settings name user input
  | .status =>
    match loaded with
    | .ok s => status disk s
    | .error _ => .failure disk []
  | .start _ =>
    match loaded with
    | .ok s => startBoard disk s
    | .error _ => .failure disk []

/-- Carries out what the arguments ask for. -/
def answer (around : Surroundings) (arguments : List String) (input : List UInt8) : Result :=
  match Request.ofArguments arguments with
  | .wrong => .misuse around.disk
  | .print text => .success around.disk (Utf8.encode text)
  | .run config command => execute around config command input

end BulletinBoard.CommandLine
