/-
# Help texts

What the program prints about itself and its commands.

Key definitions: `mainHelp`, `commandHelp`, `helpHelp`, `versionText`.
-/
import BulletinBoard.CommandLine.Grammar

namespace BulletinBoard.CommandLine

/-- A text with spaces behind it up to a width. -/
def padTo (width : Nat) (s : String) : String :=
  s ++ String.ofList (List.replicate (width - s.length) ' ')

/-- Lines of two columns. -/
def columns (rows : List (String × String)) : String :=
  let width := (rows.map fun r => r.1.length).foldl max 0
  "".intercalate (rows.map fun r => "  " ++ padTo width r.1 ++ "  " ++ r.2 ++ "\n")

/-- How an option is written. -/
def OptionSpec.usage (o : OptionSpec) : String :=
  let names := String.ofList ['-', o.short] ++ ", --" ++ o.long
  match o.kind with
  | .value label => names ++ " <" ++ label ++ ">"
  | .count => names ++ "..."
  | .final => names

/-- The part of a help text about options. -/
def optionsHelp (options : List OptionSpec) : String :=
  "Options:\n" ++ columns (options.map fun o => (o.usage, o.about))

/-- What the command for help says of itself. -/
def helpAbout : String := "Print this message or the help of the given subcommand(s)"

/-- The help of the program. -/
def mainHelp : String :=
  "A telnet-style BBS driven by MECCA display templates\n\nUsage: " ++ programName ++
    " [OPTIONS] <COMMAND>\n\nCommands:\n" ++
    columns ((commands.map fun c => (c.word, c.about)) ++ [("help", helpAbout)]) ++ "\n" ++
    optionsHelp mainOptions

/-- The help of a command. -/
def commandHelp (c : CommandSpec) : String :=
  let usage := c.about ++ "\n\nUsage: " ++ programName ++ " " ++ c.word ++ " [OPTIONS]"
  match c.argument with
  | none => usage ++ "\n\n" ++ optionsHelp c.options
  | some a =>
    usage ++ " <" ++ a.label ++ ">\n\nArguments:\n" ++
      columns [("<" ++ a.label ++ ">", a.about)] ++ "\n" ++ optionsHelp c.options

/-- The help of the command for help. -/
def helpHelp : String :=
  helpAbout ++ "\n\nUsage: " ++ programName ++ " help [COMMAND]...\n\nArguments:\n" ++
    columns [("[COMMAND]...", "Print help for the subcommand(s)")]

/-- The name and version of the program. -/
def versionText : String := programName ++ " " ++ programVersion ++ "\n"

end BulletinBoard.CommandLine
