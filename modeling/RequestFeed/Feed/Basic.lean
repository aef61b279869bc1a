import RequestFeed.Request.Projection
import RequestFeed.Stream.Router
/-!
# Feeds

A feed is the queue of the requests of one connection, in the order in which their streams were
first seen. Only the request at the head is read.

*Pruning.* Before anything is asked of a feed, requests at the head that are finished with are
released: those that failed, and those that are complete and read in full. A failed request that
is released makes the feed fail, so that the failure is known before any later request is read.
-/

namespace RequestFeed

/-- A place in the queue. -/
structure Slot where
  /-- Places are numbered in the order of the queue. -/
  number : Nat
  projection : Projection
  deriving DecidableEq, Repr

namespace Slot

/-- Nothing more will be read from this place. -/
def isSpent (s : Slot) : Bool :=
  s.projection.output.isComplete &&
    (s.projection.output.hasError || s.projection.output.held.isEmpty)

def hasError (s : Slot) : Bool := s.projection.output.hasError

end Slot

/-- The queue of requests. -/
structure Feed where
  slots : List Slot := []
  /-- The number of places so far, which is the number of the next one. -/
  created : Nat := 0
  /-- A failed request has been the next to deliver. -/
  failed : Bool := false
  deriving DecidableEq, Repr

namespace Feed

/-- Adds a place for a stream at the end of the queue. -/
def create (stream : StreamId) (f : Feed) : Feed :=
  { f with
    slots := f.slots ++ [{ number := f.created, projection := { stream } }]
    created := f.created + 1 }

/-- Takes note of an event for a place. Places that have been released take no notice. -/
def event (number : Nat) (e : StreamEvent) : List Slot → List Slot × List Notice
  | [] => ([], [])
  | s :: rest =>
    if s.number = number then
      let (projection, notices) := s.projection.step e
      ({ s with projection } :: rest, notices)
    else
      let (rest, notices) := event number e rest
      (s :: rest, notices)

/-- Takes note of an event for a place. -/
def step (number : Nat) (e : StreamEvent) (f : Feed) : Feed × List Notice :=
  let (slots, notices) := event number e f.slots
  ({ f with slots }, notices)

/-- The place of a stream, unless it has been released. -/
def placeOf? (stream : StreamId) (f : Feed) : Option Nat :=
  (f.slots.find? fun s => s.projection.stream = stream).map Slot.number

def deliver (d : Delivery) (f : Feed) : Feed × List Notice :=
  match d with
  | .created stream => (f.create stream, [])
  | .event stream e =>
    match f.placeOf? stream with
    | some number => f.step number e
    | none => (f, [])

def deliverAll : List Delivery → Feed → Feed × List Notice
  | [], f => (f, [])
  | d :: rest, f =>
    let (f, first) := f.deliver d
    let (f, others) := deliverAll rest f
    (f, first ++ others)

/-- The places that pruning releases. -/
def spent (f : Feed) : List Slot := f.slots.takeWhile Slot.isSpent

/-- Releases the places at the head that are finished with. -/
def prune (f : Feed) : Feed :=
  { f with
    slots := f.slots.dropWhile Slot.isSpent
    failed := f.failed || f.spent.any Slot.hasError }

/-- What pruning has to tell. -/
def pruneNotices (f : Feed) : List Notice :=
  (f.spent.filter Slot.hasError).map fun s => .streamUnusable s.projection.stream

/-- Of a pruned feed: the next request to deliver has failed. -/
def isFailed (f : Feed) : Bool :=
  f.failed || match f.slots with
    | [] => false
    | s :: _ => s.hasError

/-- Of a pruned feed: there are bytes to deliver. -/
def isReadable (f : Feed) : Bool :=
  !f.failed && match f.slots with
    | [] => false
    | s :: _ => !s.hasError && !s.projection.output.held.isEmpty

/-- The next request to deliver has failed. -/
def hasError (f : Feed) : Bool := f.prune.isFailed

def hasData (f : Feed) : Bool := f.prune.isReadable

/-- Of a pruned feed: there is something to report, bytes or a failure. -/
def isReady (f : Feed) : Bool := f.isFailed || f.isReadable

structure Drained where
  reply : Except Violation Reply
  feed : Feed
  notices : List Notice

/-- Reads from the request at the head. A failed feed must not be drained. -/
def drain (r : ReadRequest) (f : Feed) : Drained :=
  let pruned := f.prune
  let notices := f.pruneNotices
  if pruned.isFailed then
    { reply := .error .drainOfFailedFeed, feed := pruned, notices }
  else if pruned.isReadable then
    match pruned.slots with
    | [] => { reply := .ok { output := [], status := .ok }, feed := pruned, notices }
    | s :: rest =>
      let (reply, output) := s.projection.output.read r
      let feed : Feed :=
        { pruned with slots := { s with projection := { s.projection with output } } :: rest }
      { reply := .ok reply, feed := feed.prune, notices := notices ++ feed.pruneNotices }
  else { reply := .ok { output := [], status := .ok }, feed := pruned, notices }

end Feed
end RequestFeed
