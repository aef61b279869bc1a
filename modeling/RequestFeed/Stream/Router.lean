import RequestFeed.Stream.Event
/-!
# Routing

A router follows the streams of one connection. It turns frames into deliveries, each to one
stream.

*Rules.*
* New streams have larger numbers than all streams before.
* A stream that has finished is forgotten. A frame for it is an error, but a reset for it is
  ignored, since both sides may end a stream at the same time.
* After the peer has said that it will open no more streams, opening one is an error.

A frame that is an error leaves the router as it was.
-/

namespace RequestFeed

inductive Delivery where
  /-- A stream is seen for the first time. -/
  | created (stream : StreamId)
  | event (stream : StreamId) (event : StreamEvent)
  deriving DecidableEq, Repr

/-- What is known about the streams of a connection. -/
structure Router where
  /-- The streams that have not finished, in the order of their numbers. -/
  live : List StreamId := []
  /-- The largest number of a stream so far. -/
  highest : StreamId := 0
  /-- The last stream that the peer announced, if it did. -/
  goAway : Option StreamId := none
  deriving DecidableEq, Repr

namespace Router

def settle (stream : StreamId) (event : StreamEvent) (r : Router) : Router :=
  if event.isTerminal then { r with live := r.live.filter (· ≠ stream) } else r

def route (stream : StreamId) (event : StreamEvent) (r : Router) :
    Except FrameError (List Delivery × Router) :=
  if stream ∈ r.live then .ok ([.event stream event], r.settle stream event)
  else if stream ≤ r.highest then
    if event.isReset then .ok ([], r) else .error (.streamClosed stream)
  else if r.goAway.isSome then .error (.streamAfterGoAway stream)
  else
    .ok ([.created stream, .event stream event],
      settle stream event { r with live := r.live ++ [stream], highest := stream })

def dispatch (f : Frame) (r : Router) : Except FrameError (List Delivery × Router) := do
  match ← f.meaning with
  | .nothing => return ([], r)
  | .goAway last => return ([], { r with goAway := some last })
  | .event event => r.route f.stream event

/-- The connection has failed: every live stream is told, and none is live afterwards. -/
def fail (r : Router) : List Delivery × Router :=
  (r.live.map fun stream => .event stream .connectionFailed, { r with live := [] })

end Router
end RequestFeed
