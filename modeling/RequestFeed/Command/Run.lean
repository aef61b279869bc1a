import RequestFeed.Command.Arguments
import RequestFeed.Command.Compose
import RequestFeed.Command.Demux
import RequestFeed.Command.Inspect
/-!
# Running command lines

The commands of the program, the command lines that call them, and what they do.
-/

namespace RequestFeed

inductive Command where
  | demux (command : DemuxCommand)
  | inspect (command : InspectCommand)
  | compose (command : ComposeCommand)
  | version (extended : Bool)
  deriving DecidableEq, Repr

/-- A command line that is understood. -/
structure Invocation where
  format : OutputFormat
  command : Command
  deriving DecidableEq, Repr

namespace Command

def programName : String := "muxfeed"

def programVersion : String := "0.1.0"

/-- The options that can be given at every level. -/
def globalOptions : List ArgumentSpec :=
  [{ name := "format", value := .choice ["json", "table", "pretty"] },
    { name := "log-format", value := .choice ["text", "json"] },
    { name := "log-level", value := .choice ["error", "warn", "info", "debug", "trace"] }]

def names : List String := ["demux", "inspect", "compose", "version"]

/-- The command that explains the others. -/
def helpName : String := "help"

/-- What can be said before the command. -/
def programSpec : CommandSpec :=
  { options := globalOptions, commands := names ++ [helpName], hasVersion := true }

/-- What can be said after a command. -/
def specOf : String → CommandSpec
  | "demux" =>
    { options :=
        [{ name := "config", value := .path }, { name := "chunk", value := .size },
          { name := "read-size", value := .size }] ++ globalOptions
      positionals := [{ name := "capture", value := .path, required := true }] }
  | "inspect" =>
    { options := { name := "max-payload", value := .size } :: globalOptions
      positionals := [{ name := "capture", value := .path, required := true }] }
  | "compose" =>
    { options :=
        { name := "output", value := .path, letter := some 'o', required := true } ::
          globalOptions
      positionals := [{ name := "script", value := .path, required := true }] }
  | _ => { options := { name := "extended", value := .flag } :: globalOptions }

def textOf (name : String) (given : List (String × String)) : String :=
  (given.lookup name).getD ""

/-- The value of an argument that is a number. -/
def sizeOf? (name : String) (given : List (String × String)) : Option Nat :=
  (given.lookup name).bind ArgumentValue.size?

/-- The command with a name and arguments. -/
def ofArguments (name : String) (given : List (String × String)) : Command :=
  match name with
  | "demux" =>
    .demux
      { capture := textOf "capture" given, config := given.lookup "config"
        chunk := sizeOf? "chunk" given, readSize := (sizeOf? "read-size" given).getD 0 }
  | "inspect" =>
    .inspect { capture := textOf "capture" given, maxPayload := sizeOf? "max-payload" given }
  | "compose" => .compose { script := textOf "script" given, output := textOf "output" given }
  | _ => .version (given.lookup "extended").isSome

def formatOf : Option String → OutputFormat
  | some "table" => .table
  | some "pretty" => .pretty
  | _ => .json

/-- What the command that explains the others is asked. -/
def help : List String → UsageError
  | [] => .displayHelp
  | [name] => if (names ++ [helpName]).contains name then .displayHelp else .invalidSubcommand
  | _ => .invalidSubcommand

/-- Understands a command line. What a command is told about a format wins. -/
def parse (args : List String) : Except UsageError Invocation := do
  let (scan, command) ← ArgumentScan.readToCommand args { spec := programSpec }
  match command with
  | none =>
    let scan ← scan.resolve
    throw
      (if scan.given = [] then .displayHelpOnMissingArgumentOrSubcommand else .missingSubcommand)
  | some (name, rest) =>
    if name = helpName then
      throw (help rest)
    let inner ← ArgumentScan.readAll rest { spec := specOf name }
    let scan ← scan.resolve
    return {
      format := formatOf (inner.lookup "format" <|> scan.given.lookup "format")
      command := ofArguments name inner }

/-- What is told about the program. -/
def about (extended : Bool) : String :=
  if extended then
    OutputFormat.linesOf
      [s!"name: {programName}", s!"version: {programVersion}", "features: filter=true, cli=true",
        s!"default_protocol: {ProtocolName.standard}"]
  else OutputFormat.linesOf [s!"{programName} {programVersion}"]

def overview : String :=
  OutputFormat.linesOf
    [s!"Usage: {programName} [OPTIONS] <COMMAND>", "Commands: " ++ ", ".intercalate names]

/-- What happens when a command line asks for something else than a command, or is not
understood. -/
def explain : UsageError → CommandResult
  | .displayHelp => { output := Bytes.utf8 overview }
  | .displayVersion => { output := Bytes.utf8 (about false) }
  | e => .failed ⟨CommandFailure.misuse, e.name ++ "\n" ++ overview⟩

end Command

namespace Invocation

def run (i : Invocation) (d : Disk) : CommandResult :=
  match i.command with
  | .demux command => command.run d
  | .inspect command => command.run i.format d
  | .compose command => command.run i.format d
  | .version extended => { output := Bytes.utf8 (Command.about extended) }

/-- The files that a command may read or write. -/
def paths (i : Invocation) : List String :=
  match i.command with
  | .demux command => command.capture :: command.config.toList
  | .inspect command => [command.capture]
  | .compose command => [command.script, command.output]
  | .version _ => []

end Invocation
end RequestFeed
