import RequestFeed.Command.Disk
import RequestFeed.Command.Exit
import RequestFeed.Filter.ConfigFile
import RequestFeed.Filter.Drain
import RequestFeed.Read.Lookahead
/-!
# The command that prints a feed

Reads the bytes of a recorded connection through a filter and prints the feed of requests. What
was delivered before an error is printed too.
-/

namespace RequestFeed

/-- What to print the feed of, and how to read it. -/
structure DemuxCommand where
  capture : String
  /-- The file that holds the settings of the filter. -/
  config : Option String := none
  /-- How many bytes are asked for at once, whatever the settings say. -/
  chunk : Option Nat := none
  /-- How many bytes a read of the filter delivers at most; zero stands for no limit. -/
  readSize : Nat := 0
  deriving DecidableEq, Repr

namespace DemuxCommand

/-- The settings of the filter, before the last check. -/
def settings (c : DemuxCommand) (d : Disk) : Except CommandFailure FilterConfig :=
  let loaded : Except CommandFailure FilterConfig :=
    match c.config with
    | none => .ok {}
    | some path =>
      match FilterConfig.load (d.read path) with
      | .ok config => .ok config
      | .error e => .error (CommandFailure.ofFilter s!"failed loading {path}" e)
  loaded.map fun config =>
    { config with readChunkSize := c.chunk.getD config.readChunkSize }

/-- The context of a connection that is known to carry many streams. -/
def context : ConnectionContext := { protocol := .multiplexed }

/-- Reads everything from a source through a filter, as the command does. -/
def deliver {σ : Type} [Source σ] (readSize : Nat) (f : Filter) (s : σ) : Delivered σ :=
  f.readToEnd readSize s

/-- How the command ends when the feed has ended so. -/
def failureOf? : Except Violation ReadError → Option CommandFailure
  | .ok e => CommandFailure.ofRead? "demux" e
  | .error v => some (CommandFailure.ofViolation v)

/-- Prints the feed of what a reader gives. -/
def replay {ρ : Type} [Reader ρ] (config : FilterConfig) (readSize : Nat) (reader : ρ) :
    CommandResult :=
  match Filter.create context config with
  | .error e => .failed (CommandFailure.ofFilter "invalid filter config" e)
  | .ok f =>
    let source : Lookahead ρ := { reader }
    let delivered := deliver readSize f source
    { output := delivered.output.flatten, failure := failureOf? delivered.ending }

def run (c : DemuxCommand) (d : Disk) : CommandResult :=
  match c.settings d with
  | .error failure => .failed failure
  | .ok config =>
    match OpenFile.ofPath c.capture d with
    | .error e => .failed (CommandFailure.ofIo s!"failed opening {c.capture}" e)
    | .ok file => replay config c.readSize file

end DemuxCommand
end RequestFeed
