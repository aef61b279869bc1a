import RequestFeed.Request.Error
import RequestFeed.Violation
/-!
# Notices

What a connection tells those who watch over it, besides the bytes it delivers.
-/

namespace RequestFeed

inductive Notice where
  /-- A stream has no request. -/
  | projectionFailed (stream : UInt32) (cause : ProjectionError)
  /-- A failed stream has become the next to deliver. -/
  | streamUnusable (stream : UInt32)
  /-- The bytes of the connection make no sense. -/
  | framingFailed (cause : FrameError) (live : Nat)
  /-- Nobody selected a protocol. -/
  | selectionIncomplete
  /-- Bytes came after the end of an output, and were dropped. -/
  | writeDropped (length : Nat)
  deriving DecidableEq, Repr

namespace Notice

/-- The contract that was broken, if the notice is about one. -/
def violation? : Notice → Option Violation
  | .writeDropped _ => some .writeAfterEnd
  | _ => none

def message : Notice → String
  | .projectionFailed _ _ => "stream projection failed"
  | .streamUnusable _ => "stream failed; input is unusable"
  | .framingFailed _ _ => "framing error; failing connection input"
  | .selectionIncomplete => "protocol selection did not complete; passing input through"
  | .writeDropped _ => "write to completed accumulator dropped"

/-- The particulars of a notice: names and values. -/
def details : Notice → List (String × String)
  | .projectionFailed stream cause => [("stream_id", toString stream), ("err", cause.message)]
  | .streamUnusable stream => [("stream_id", toString stream)]
  | .framingFailed cause live => [("err", cause.message), ("live_streams", toString live)]
  | .selectionIncomplete => []
  | .writeDropped length => [("len", toString length)]

end Notice
end RequestFeed
