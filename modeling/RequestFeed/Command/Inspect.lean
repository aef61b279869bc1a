import RequestFeed.Command.Disk
import RequestFeed.Command.Exit
import RequestFeed.Command.Report
import RequestFeed.Frame.Reader
/-!
# The command that lists frames

Lists the frames of a recorded connection, up to the first error, and then tells the error.
-/

namespace RequestFeed

/-- What to list the frames of. -/
structure InspectCommand where
  capture : String
  maxPayload : Option Nat := none
  deriving DecidableEq, Repr

namespace InspectCommand

def run (c : InspectCommand) (format : OutputFormat) (d : Disk) : CommandResult :=
  match OpenFile.ofPath c.capture d with
  | .error e => .failed (CommandFailure.ofIo s!"failed opening {c.capture}" e)
  | .ok file =>
    let reader : FrameReader OpenFile :=
      { reader := file, maxPayload := c.maxPayload.getD Frame.defaultMaxPayload }
    let (frames, failure, _) := reader.collect
    { output := Bytes.utf8 (format.frames (FrameRow.ofFrames 0 frames))
      failure := failure.map (CommandFailure.ofFrame s!"frame #{frames.length}") }

end InspectCommand
end RequestFeed
