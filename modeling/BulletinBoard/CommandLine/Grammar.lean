/-
# The words of the command line

The commands, what they take, and the options that go with them.

Key definitions: `OptionName`, `OptionSpec`, `ArgumentSpec`, `CommandSpec`, `commands`.
-/
namespace BulletinBoard.CommandLine

/-- What an option stands for. -/
inductive OptionName where
  | config
  | verbose
  | bind
  | user
  | help
  | version
  deriving DecidableEq, Repr

/-- What an option does. -/
inductive OptionKind where
  /-- It takes a value, and is given once. -/
  | value (label : String)
  /-- It may be given several times. -/
  | count
  /-- It ends the reading. -/
  | final
  deriving DecidableEq, Repr

/-- An option. -/
structure OptionSpec where
  option : OptionName
  short : Char
  long : String
  kind : OptionKind
  about : String
  deriving DecidableEq, Repr

/-- The name of the program. -/
def programName : String := "meccabbs"

/-- The version of the program. -/
def programVersion : String := "0.1.0"

/-- The file that settings are in unless another is named. -/
def standardConfig : String := "config.toml"

/-- The name a rendered template gives the user unless another is named. -/
def standardUser : String := "Sysop"

/-- The settings file. -/
def configOption : OptionSpec where
  option := .config
  short := 'c'
  long := "config"
  kind := .value "CONFIG"
  about := "Configuration file path (can be used before or after subcommand) [default: " ++
    standardConfig ++ "]"

/-- How much is logged. -/
def verboseOption : OptionSpec where
  option := .verbose
  short := 'v'
  long := "verbose"
  kind := .count
  about := "Verbose logging (-v, -vv for more; may appear before or after subcommand)"

/-- The help. -/
def helpOption : OptionSpec where
  option := .help
  short := 'h'
  long := "help"
  kind := .final
  about := "Print help"

/-- The version. -/
def versionOption : OptionSpec where
  option := .version
  short := 'V'
  long := "version"
  kind := .final
  about := "Print version"

/-- The listen address. -/
def bindOption : OptionSpec where
  option := .bind
  short := 'b'
  long := "bind"
  kind := .value "BIND"
  about := "Listen address override (e.g., 0.0.0.0:2323)"

/-- The name a rendered template gives the user. -/
def userOption : OptionSpec where
  option := .user
  short := 'u'
  long := "user"
  kind := .value "USER"
  about := "User name the template sees [default: " ++ standardUser ++ "]"

/-- The options before a command. -/
def mainOptions : List OptionSpec :=
  [configOption, verboseOption, helpOption, versionOption]

/-- The names of the commands. -/
inductive CommandName where
  | start
  | init
  | check
  | render
  | status
  deriving DecidableEq, Repr

/-- The argument of a command. -/
structure ArgumentSpec where
  label : String
  about : String
  /-- Whether an empty word will do. -/
  mayBeEmpty : Bool
  deriving DecidableEq, Repr

/-- A command. -/
structure CommandSpec where
  command : CommandName
  word : String
  about : String
  /-- The argument it takes, if it takes one. -/
  argument : Option ArgumentSpec
  options : List OptionSpec
  deriving DecidableEq, Repr

/-- Every command. -/
def commands : List CommandSpec := [
  ⟨.start, "start", "Start the BBS server", none,
    [bindOption, configOption, verboseOption, helpOption]⟩,
  ⟨.init, "init", "Initialize a new BBS configuration", none,
    [configOption, verboseOption, helpOption]⟩,
  ⟨.check, "check", "Compile a template file and print a JSON summary",
    some ⟨"FILE", "Template source file", false⟩, [configOption, verboseOption, helpOption]⟩,
  ⟨.render, "render", "Run a template from the template root against this terminal",
    some ⟨"NAME", "Template name relative to the template root (e.g., misc/logo)", true⟩,
    [userOption, configOption, verboseOption, helpOption]⟩,
  ⟨.status, "status", "Show BBS status and template statistics", none,
    [configOption, verboseOption, helpOption]⟩]

/-- The command of a word. -/
def command? (word : String) : Option CommandSpec :=
  commands.find? fun c => c.word == word

end BulletinBoard.CommandLine
