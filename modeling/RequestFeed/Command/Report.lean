import RequestFeed.Frame.Basic
import RequestFeed.Json.Quote
import RequestFeed.Text.Table
/-!
# Reports

What the commands print about frames and files, in one of three formats: a JSON document per
line, a table, or a line of text.
-/

namespace RequestFeed

inductive OutputFormat where
  | json
  | table
  | pretty
  deriving DecidableEq, Repr

structure FrameRow where
  index : Nat
  kind : String
  stream : StreamId
  initiator : String
  fin : Bool
  size : Nat
  detail : String
  deriving DecidableEq, Repr

namespace FrameRow

/-- The length of the longest payload that is shown, in bytes. -/
def maxPreview : Nat := 48

/-- A payload, if it is a short text, and otherwise its length. -/
def preview (payload : Bytes) : String :=
  match Bytes.text? payload with
  | some text =>
    if text.utf8ByteSize ≤ maxPreview then Escape.preview text else s!"<{payload.length} bytes>"
  | none => s!"<{payload.length} bytes>"

/-- The gist of a header block. -/
def summary (headers : HeaderBlock) : String :=
  let method := (headers.get? "method").getD "?"
  let url := (headers.get? "url").getD "?"
  s!"{method} {url} ({headers.entries.length} headers)"

/-- A labelled number, or what is wrong with it. -/
def labelled (label : String) (code : Except FrameError UInt32) : String :=
  match code with
  | .ok n => s!"{label}={n}"
  | .error e => e.message

/-- The gist of a frame. -/
def detailOf (f : Frame) : String :=
  match f.kind with
  | .opening =>
    match f.headerBlock with
    | .ok headers => summary headers
    | .error e => s!"invalid headers: {e.message}"
  | .data | .ping => preview f.payload
  | .reset => labelled "code" f.code
  | .goAway => labelled "last_stream" f.code

def initiatorOf (f : Frame) : String :=
  if f.kind.isConnectionLevel then "connection"
  else if f.stream.isClientInitiated then "client"
  else "server"

def ofFrame (index : Nat) (f : Frame) : FrameRow :=
  { index, kind := f.kind.name, stream := f.stream, initiator := initiatorOf f, fin := f.isFin,
    size := f.payload.length, detail := detailOf f }

/-- The rows of frames, numbered from `index` on. -/
def ofFrames (index : Nat) : List Frame → List FrameRow
  | [] => []
  | f :: rest => ofFrame index f :: ofFrames (index + 1) rest

def toJson (r : FrameRow) : String :=
  JsonQuote.object
    [("index", toString r.index), ("kind", JsonQuote.quote r.kind),
      ("stream_id", toString r.stream), ("initiator", JsonQuote.quote r.initiator),
      ("fin", toString r.fin), ("payload_size", toString r.size),
      ("detail", JsonQuote.quote r.detail)]

def toLine (r : FrameRow) : String :=
  s!"#{r.index} {r.kind} stream={r.stream} ({r.initiator}) fin={r.fin} size={r.size} {r.detail}"

/-- A row as the cells of a table. -/
def toCells (r : FrameRow) : List String :=
  [toString r.index, r.kind, s!"{r.stream} ({r.initiator})", if r.fin then "yes" else "",
    toString r.size, r.detail]

end FrameRow

/-- What is known about a file that was written. -/
structure FileSummary where
  output : String
  frames : Nat
  bytes : Nat
  deriving DecidableEq, Repr

namespace FileSummary

/-- The particulars of a summary, as text. -/
def pairs (s : FileSummary) : List (String × String) :=
  [("output", s.output), ("frames", toString s.frames), ("bytes", toString s.bytes)]

def toJson (s : FileSummary) : String :=
  JsonQuote.object
    [("output", JsonQuote.quote s.output), ("frames", toString s.frames),
      ("bytes", toString s.bytes)]

end FileSummary

namespace OutputFormat

/-- Every text on a line of its own. -/
def linesOf (texts : List String) : String := String.join (texts.map (· ++ "\n"))

def frames (format : OutputFormat) (rows : List FrameRow) : String :=
  match format with
  | .json => linesOf (rows.map FrameRow.toJson)
  | .pretty => linesOf (rows.map FrameRow.toLine)
  | .table =>
    linesOf
      [Table.render ["#", "KIND", "STREAM", "FIN", "SIZE", "DETAIL"]
        (rows.map FrameRow.toCells)]

def summary (format : OutputFormat) (s : FileSummary) : String :=
  match format with
  | .json => linesOf [s.toJson]
  | .pretty => linesOf [" ".intercalate (s.pairs.map fun p => p.1 ++ "=" ++ p.2)]
  | .table => linesOf [Table.render ["FIELD", "VALUE"] (s.pairs.map fun p => [p.1, p.2])]

end OutputFormat
end RequestFeed
