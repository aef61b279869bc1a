import RequestFeed.Command.Disk
import RequestFeed.Command.Exit
import RequestFeed.Command.Report
import RequestFeed.Command.Script
import RequestFeed.Frame.Writer
/-!
# The command that writes frames

Turns a script into the bytes of a connection. Nothing is written unless every entry of the
script makes a frame.
-/

namespace RequestFeed

/-- A new file, with the pieces written to it so far, the latest first. -/
structure NewFile where
  pieces : List Bytes := []
  deriving DecidableEq, Repr

namespace NewFile

def contents (f : NewFile) : Bytes := f.pieces.reverse.flatten

instance : Sink NewFile where
  write bs f := (.ok bs.length, ⟨bs :: f.pieces⟩)
  flush f := (.ok (), f)
  patience _ := 0
  patience_write_le _ _ := Nat.le_refl _
  patience_write_lt _ _ _ h := by simp at h
  patience_flush_lt _ _ h := by simp at h

end NewFile

/-- What to write, and where. -/
structure ComposeCommand where
  script : String
  output : String
  deriving DecidableEq, Repr

namespace ComposeCommand

/-- The frames of a script. -/
def frames : List ScriptEntry → Except CommandFailure (List Frame)
  | [] => .ok []
  | entry :: rest =>
    match entry.toFrame with
    | .error e =>
      .error (CommandFailure.ofFrame s!"stream {entry.stream}" (.invalidHeaderBlock e))
    | .ok f => (frames rest).map (f :: ·)

/-- Writes frames one after the other, up to the first error. -/
def writeAll : List Frame → FrameWriter NewFile → Except FrameError Unit × FrameWriter NewFile
  | [], w => (.ok (), w)
  | f :: rest, w =>
    match w.write f with
    | (.error e, w) => (.error e, w)
    | (.ok (), w) => writeAll rest w

/-- Writes frames to a new file. -/
def write (output : String) (format : OutputFormat) (fs : List Frame) : CommandResult :=
  let (result, writer) := writeAll fs { sink := {} }
  let written := some (output, writer.sink.contents)
  match result with
  | .error e => { failure := some (CommandFailure.ofFrame "failed writing frame" e), written }
  | .ok () =>
    let summary : FileSummary :=
      { output, frames := fs.length, bytes := total Frame.wireSize fs }
    { output := Bytes.utf8 (format.summary summary), written }

def run (c : ComposeCommand) (format : OutputFormat) (d : Disk) : CommandResult :=
  match d.read c.script with
  | .error e => .failed (CommandFailure.ofIo s!"failed reading {c.script}" e)
  | .ok raw =>
    match ScriptEntry.ofBytes? raw with
    | none =>
      .failed
        (CommandFailure.about s!"invalid script {c.script}" CommandFailure.dataInvalid
          "malformed document")
    | some script =>
      match frames script with
      | .error failure => .failed failure
      | .ok fs =>
        match d.destination c.output with
        | .error e => .failed (CommandFailure.ofIo s!"failed creating {c.output}" e)
        | .ok _ => write c.output format fs

end ComposeCommand
end RequestFeed
