import RequestFeed.Request.Accumulator
import RequestFeed.Request.Head
import RequestFeed.Stream.Event
/-!
# Projections

A projection turns the events of one stream into the bytes of one request. A body whose length
was not announced is sent in chunks.

An event that makes no sense, an abnormal end and a failed connection make the request fail. What
comes after the end of the request is ignored.
-/

namespace RequestFeed

/-- Where a projection stands. -/
inductive ProjectionStage where
  /-- The stream has not been opened. -/
  | awaitingOpening
  /-- The head is written. -/
  | body (chunked : Bool)
  | finished
  deriving DecidableEq, Repr

namespace ProjectionStage

/-- Bytes as one chunk: their number in hexadecimal, and the bytes, each closed by a line end. -/
def chunk (bs : Bytes) : Bytes :=
  Bytes.utf8 (Hex.render bs.length) ++ RequestHead.lineEnd ++ bs ++ RequestHead.lineEnd

/-- The chunk that closes a body. -/
def lastChunk : Bytes := [0x30] ++ RequestHead.lineEnd ++ RequestHead.lineEnd

/-- Bytes of a body. No bytes make no chunk, because an empty chunk would close the body. -/
def bodyBytes (chunked : Bool) (bs : Bytes) : Bytes :=
  if chunked then (if bs = [] then [] else chunk bs) else bs

/-- The bytes that an event adds to the request, and the stage after it. -/
def advance : ProjectionStage → StreamEvent → Except ProjectionError (Bytes × ProjectionStage)
  | .awaitingOpening, .opened headers fin => do
    let chunked := !fin && (headers.get? RequestHead.lengthName).isNone
    let head ← RequestHead.render headers chunked
    return (head, if fin then .finished else .body chunked)
  | .awaitingOpening, .data _ _ => throw .dataBeforeOpening
  | .body _, .opened _ _ => throw .openedTwice
  | .body chunked, .data bs fin =>
    return (bodyBytes chunked bs ++ (if chunked && fin then lastChunk else []),
      if fin then .finished else .body chunked)
  | .finished, _ => return ([], .finished)
  | _, .reset code => throw (.reset code)
  | _, .connectionFailed => throw .connectionFailed

end ProjectionStage

/-- The request of one stream, as far as it has come. -/
structure Projection where
  stream : StreamId
  stage : ProjectionStage := .awaitingOpening
  output : Accumulator := {}
  deriving DecidableEq, Repr

namespace Projection

def isFinished (p : Projection) : Bool := p.stage == .finished

def step (e : StreamEvent) (p : Projection) : Projection × List Notice :=
  if p.isFinished then (p, [])
  else
    match p.stage.advance e with
    | .error cause =>
      ({ p with stage := .finished, output := p.output.fail },
        [.projectionFailed p.stream cause])
    | .ok (bs, stage) =>
      let (output, notices) := p.output.append bs
      ({ p with
          stage
          output := if stage = .finished then output.complete else output },
        notices)

end Projection
end RequestFeed
