import RequestFeed.Command.Run
/-!
# The program

Looks at the files that a command line names, runs the command on what was found there, and leaves
behind what the command printed and wrote. Everything that is decided is decided by
`Command.parse` and `Invocation.run`.
-/

namespace RequestFeed.Program

/-- The error that the system reports. -/
def errorOf : IO.Error → IoError
  | .noFileOrDirectory .. => IoError.noSuchFile
  | .permissionDenied _ code _ => ⟨.permissionDenied, s!"Permission denied (os error {code})"⟩
  | .inappropriateType _ code _ => if code = 21 then IoError.directory else IoError.notDirectory
  | e => ⟨.other, e.toString⟩

/-- What a path names, if it names anything. -/
def look (path : String) : IO (Option DiskNode) := do
  try
    let contents ← IO.FS.readBinFile path
    return some (.file contents.toList)
  catch e =>
    let cause := errorOf e
    match cause.kind with
    | .notFound => return none
    | .isADirectory => return some .directory
    | _ => return some (.unreadable cause)

/--
What a path leads through. A directory on the way need not let its names be listed, so it counts
as one whatever reading it says.
-/
def lookAlong (path : String) : IO (List (Place × DiskNode)) := do
  let stations := Disk.stations path
  let before ← stations.dropLast.mapM fun (part, place) => do
    match ← look part with
    | some (.unreadable _) => return some (place, DiskNode.directory)
    | found => return found.map fun node => (place, node)
  let last ← (stations.drop (stations.length - 1)).mapM fun (part, place) => do
    return (← look part).map fun node => (place, node)
  return (before ++ last).filterMap id

/-- Leaves behind what a command printed and wrote, and gives its exit code. -/
def finish (r : CommandResult) : IO UInt32 := do
  match r.written with
  | none => pure ()
  | some (path, contents) => IO.FS.writeBinFile path (ByteArray.mk contents.toArray)
  let stdout ← IO.getStdout
  stdout.write (ByteArray.mk r.output.toArray)
  stdout.flush
  match r.failure with
  | none => return CommandFailure.success.toUInt32
  | some f =>
    match f.report? with
    | some message => IO.eprintln s!"error: {message}"
    | none => IO.eprintln f.message
    return f.code.toUInt32

end RequestFeed.Program

def main (args : List String) : IO UInt32 := do
  match RequestFeed.Command.parse args with
  | .error e => RequestFeed.Program.finish (RequestFeed.Command.explain e)
  | .ok i =>
    let nodes ← i.paths.mapM RequestFeed.Program.lookAlong
    RequestFeed.Program.finish (i.run ⟨nodes.flatten⟩)
