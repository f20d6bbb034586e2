/-
# Reading the command line

The arguments of the program are read from left to right: options, a command, the command's options
and its argument. Options with a value take it from the same word or from the next, and are given
once at each place. What is given behind the command counts before what is given ahead of it.

Key definitions: `Request`, `Given`, `Expected`, `scan`, `Request.ofArguments`.
-/
import BulletinBoard.CommandLine.Help

namespace BulletinBoard.CommandLine

/-- What the program is asked to do. -/
inductive Command where
  | start (bind : Option String)
  | init
  | check (file : String)
  | render (name user : String)
  | status
  deriving DecidableEq, Repr

/-- What the arguments come to. -/
inductive Request where
  /-- A command, with the file of the settings. -/
  | run (config : String) (command : Command)
  /-- A text to print. -/
  | print (text : String)
  /-- Arguments that are not in order. -/
  | wrong
  deriving DecidableEq, Repr

/-- The options and the argument read so far. -/
structure Given where
  values : List (OptionName × String)
  argument : Option String
  deriving DecidableEq, Repr

namespace Given

/-- Nothing read. -/
def nothing : Given := ⟨[], none⟩

/-- The value of an option. -/
def value? (g : Given) (o : OptionName) : Option String :=
  g.values.lookup o

/-- Takes in the value of an option that has none yet. -/
def add? (g : Given) (o : OptionName) (value : String) : Option Given :=
  match g.value? o with
  | some _ => none
  | none => some { g with values := (o, value) :: g.values }

/-- Takes in the argument of a command, which is given once. -/
def addArgument? (g : Given) (argument : Option ArgumentSpec) (word : String) : Option Given :=
  match argument, g.argument with
  | some a, none =>
    if word.isEmpty && !a.mayBeEmpty then none else some { g with argument := some word }
  | _, _ => none

end Given

/-- What ends a reading early. -/
inductive Stop where
  | help
  | version
  | wrong
  deriving DecidableEq, Repr

/-- What a final option does. -/
def Stop.ofOption : OptionName → Stop
  | .help => .help
  | .version => .version
  | _ => .wrong

/-- What an option word leads to: more has been read, or an option waits for its value. -/
inductive Taken where
  | done (g : Given)
  | waits (g : Given) (o : OptionName)
  deriving DecidableEq, Repr

/-- Reads an option with two dashes. -/
def takeLong (options : List OptionSpec) (g : Given) (text : List Char) : Except Stop Taken :=
  let name := String.ofList (text.takeWhile (· != '='))
  let attached := match text.dropWhile (· != '=') with
    | [] => none
    | _ :: value => some (String.ofList value)
  match options.find? fun o => o.long == name with
  | none => .error .wrong
  | some o =>
    match o.kind, attached with
    | .value _, some value =>
      match g.add? o.option value with
      | some g => .ok (.done g)
      | none => .error .wrong
    | .value _, none => .ok (.waits g o.option)
    | .count, none => .ok (.done g)
    | .final, none => .error (.ofOption o.option)
    | _, some _ => .error .wrong

/-- Reads options with one dash. One with a value takes it from the rest of the word. -/
def takeShort (options : List OptionSpec) (g : Given) : List Char → Except Stop Taken
  | [] => .ok (.done g)
  | c :: rest =>
    match options.find? fun o => o.short == c with
    | none => .error .wrong
    | some o =>
      match o.kind with
      | .count => takeShort options g rest
      | .final => .error (.ofOption o.option)
      | .value _ =>
        match rest with
        | [] => .ok (.waits g o.option)
        | d :: more =>
          let value := if d = '=' then more else rest
          match g.add? o.option (String.ofList value) with
          | some g => .ok (.done g)
          | none => .error .wrong

/-- Whether a word is an option, or the mark that no options follow. -/
def isOption (word : String) : Bool :=
  match word.toList with
  | '-' :: _ :: _ => true
  | _ => false

/-- What is read: the options, the argument if one is taken, and whether the first word that is
neither ends the reading. -/
structure Expected where
  options : List OptionSpec
  argument : Option ArgumentSpec
  stops : Bool

/-- Reads words up to the end, or to the word that ends the reading. `closed` says that no options
follow. -/
def scan (x : Expected) (closed : Bool) (g : Given) :
    List String → Except Stop (Given × List String)
  | [] => .ok (g, [])
  | word :: rest =>
    match word.toList, closed with
    | ['-', '-'], false => scan x true g rest
    | '-' :: c :: more, false =>
      match if c = '-' then takeLong x.options g more else takeShort x.options g (c :: more) with
      | .error s => .error s
      | .ok (.done g) => scan x false g rest
      | .ok (.waits g o) =>
        match rest with
        | [] => .error .wrong
        | value :: rest =>
          if isOption value then .error .wrong
          else
            match g.add? o value with
            | some g => scan x false g rest
            | none => .error .wrong
    | _, closed =>
      if x.stops && !closed then .ok (g, word :: rest)
      else
        match g.addArgument? x.argument word with
        | some g => scan x closed g rest
        | none => .error .wrong

/-- The text that a command for help asks for. -/
def helpRequest : List String → Request
  | [] => .print mainHelp
  | [word] =>
    if word = "help" then .print helpHelp
    else
      match command? word with
      | some c => .print (commandHelp c)
      | none => .wrong
  | _ => .wrong

/-- What a reading that ended early asks for, `help` being the help at that place. -/
def Request.ofStop (help : String) : Stop → Request
  | .help => .print help
  | .version => .print versionText
  | .wrong => .wrong

/-- The command that was asked for, if it has the argument it takes. -/
def build? (c : CommandSpec) (g : Given) : Option Command :=
  match c.command with
  | .start => some (.start (g.value? .bind))
  | .init => some .init
  | .check => g.argument.map .check
  | .render => g.argument.map fun name => .render name ((g.value? .user).getD standardUser)
  | .status => some .status

/-- Reads the arguments of the program. -/
def Request.ofArguments (arguments : List String) : Request :=
  match scan ⟨mainOptions, none, true⟩ false .nothing arguments with
  | .error s => .ofStop mainHelp s
  | .ok (_, []) => .wrong
  | .ok (ahead, word :: rest) =>
    if word = "help" then helpRequest rest
    else
      match command? word with
      | none => .wrong
      | some c =>
        match scan ⟨c.options, c.argument, false⟩ false .nothing rest with
        | .error s => .ofStop (commandHelp c) s
        | .ok (behind, _) =>
          match build? c behind with
          | none => .wrong
          | some command =>
            let config := (behind.value? .config).or (ahead.value? .config)
            .run (config.getD standardConfig) command

end BulletinBoard.CommandLine
