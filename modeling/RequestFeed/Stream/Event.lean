import RequestFeed.Frame.Basic
/-!
# Stream events

What happens to one stream, told apart from the frames that carry it.
-/

namespace RequestFeed

/-- One thing that happens to a stream. -/
inductive StreamEvent where
  | opened (headers : HeaderBlock) (fin : Bool)
  | data (bytes : Bytes) (fin : Bool)
  | reset (code : UInt32)
  | connectionFailed
  deriving DecidableEq, Repr

namespace StreamEvent

/-- Nothing more will happen to the stream. -/
def isTerminal : StreamEvent → Bool
  | .opened _ fin | .data _ fin => fin
  | .reset _ | .connectionFailed => true

def isReset : StreamEvent → Bool
  | .reset _ => true
  | _ => false

end StreamEvent

/-- What a frame says. -/
inductive FrameMeaning where
  /-- Nothing that anyone has to know. -/
  | nothing
  /-- No stream after this one will be opened. -/
  | goAway (last : StreamId)
  | event (event : StreamEvent)
  deriving DecidableEq, Repr

/-- What a frame says, if its payload is what its kind calls for. -/
def Frame.meaning (f : Frame) : Except FrameError FrameMeaning :=
  match f.kind with
  | .ping => .ok .nothing
  | .goAway => f.code.map .goAway
  | .opening => f.headerBlock.map fun headers => .event (.opened headers f.isFin)
  | .data => .ok (.event (.data f.payload f.isFin))
  | .reset => f.code.map fun code => .event (.reset code)

end RequestFeed
