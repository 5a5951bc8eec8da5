import GreetingService.CommandLine.Option

/-!
# Help on the command line

The screens that explain the program and each of its commands. A screen is a list of tables; each
table has the names on the left and the explanations on the right, wrapped at the width of the
screen.
-/

namespace GreetingService.CommandLine

/-- What a help screen is about. -/
inductive Topic where
  | program
  | command (command : Command)
  deriving DecidableEq

/-- The name of the program as it is typed. -/
def programName : String := "greeter-cli"

/-- The program with its version. -/
def versionLine : String := "Greeter 0.1.0"

/-- The number of characters in a line of a screen. -/
def screenWidth : Nat := 100

/-- Breaks words into lines of at most `width` characters; `line` is the one that is being
filled. -/
def wrapFrom (width : Nat) (line : String) : List String → List String
  | [] => [line]
  | word :: words =>
    if line.length + 1 + word.length ≤ width then wrapFrom width (line ++ " " ++ word) words
    else line :: wrapFrom width word words

/-- Breaks a text into lines of at most `width` characters. -/
def wrap (width : Nat) (text : String) : List String :=
  match text.splitOn " " with
  | [] => []
  | word :: words => wrapFrom width word words

/-- A number of blanks. -/
def blanks (n : Nat) : String :=
  String.ofList (List.replicate n ' ')

/-- A row of a table: a name and its explanation. -/
structure Row where
  name : String
  text : String

/-- The lines of a row whose name takes `width` characters. -/
def Row.lines (width : Nat) (r : Row) : List String :=
  let start := 4 + width + 4
  match wrap (screenWidth - start) r.text with
  | [] => [blanks 4 ++ r.name]
  | first :: rest =>
    (blanks 4 ++ r.name ++ blanks (width - r.name.length) ++ blanks 4 ++ first)
      :: rest.map (blanks start ++ ·)

/-- A table under its title. -/
structure Table where
  title : String
  rows : List Row

/-- The lines of a table. -/
def Table.lines (t : Table) : List String :=
  let width := (t.rows.map fun r => r.name.length).foldl max 0
  (t.title ++ ":") :: t.rows.flatMap (Row.lines width)

/-- The row of an option; options without a letter are in line with the others. -/
def Opt.row (o : Opt) : Row where
  name :=
    (match o.short? with
      | some letter => "-" ++ String.singleton letter ++ ", "
      | none => blanks 4) ++ o.display
  text := o.summary

/-- The table of options. -/
def optionTable (options : List Opt) : Table :=
  ⟨"OPTIONS", options.map Opt.row⟩

/-- The table of commands. -/
def commandTable : Table :=
  ⟨"SUBCOMMANDS", Command.all.map fun c => ⟨c.name, c.summary⟩⟩

/-- The table of what `help` takes. -/
def argumentTable : Table :=
  ⟨"ARGS", [⟨"<SUBCOMMAND>...", "The subcommand whose help message to display"⟩]⟩

namespace Topic

/-- The lines at the top of a screen. -/
def heading : Topic → List String
  | .program => [versionLine, "UMD Database Group", "Command Line Tool for the Greeter function"]
  | .command c => [programName ++ "-" ++ c.name ++ " ", c.summary]

/-- How the program or a command is used. -/
def usage : Topic → String
  | .program => programName ++ " [OPTIONS] <SUBCOMMAND>"
  | .command .config => programName ++ " config [OPTIONS]"
  | .command .help => programName ++ " help [OPTIONS] [SUBCOMMAND]..."
  | .command .invoke => programName ++ " invoke [OPTIONS] --event <FILE>"

/-- The tables of a screen. -/
def tables : Topic → List Table
  | .program => [optionTable Scope.root.options, commandTable]
  | .command .config => [optionTable Scope.config.options]
  | .command .help => [argumentTable, optionTable [.config, .logLevel, .silent, .trace]]
  | .command .invoke => [optionTable Scope.invoke.options]

/-- The screen of a topic. -/
def screen (t : Topic) : String :=
  let lines := t.heading ++ ["", "USAGE:", blanks 4 ++ t.usage]
    ++ t.tables.flatMap fun table => "" :: table.lines
  String.join (lines.map (· ++ "\n"))

end Topic

end GreetingService.CommandLine
