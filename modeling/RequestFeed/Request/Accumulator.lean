import RequestFeed.ByteQueue
import RequestFeed.Notice
import RequestFeed.Read.Source
/-!
# Accumulators

An accumulator holds what one stream has produced and nobody has read yet. It grows until its end
is set, either because the stream is complete or because it failed. Reading never waits, since
everything is at hand.
-/

namespace RequestFeed

/-- Whether more will come. -/
inductive Growth where
  | growing
  | complete
  /-- The stream failed; no more will come. -/
  | failed
  deriving DecidableEq, Repr

/-- What a stream has produced and nobody has read yet. -/
structure Accumulator where
  held : ByteQueue := .empty
  growth : Growth := .growing
  deriving DecidableEq, Repr

namespace Accumulator

def isComplete (a : Accumulator) : Bool := a.growth != .growing

def hasError (a : Accumulator) : Bool := a.growth == .failed

/-- Adds bytes. After the end they are dropped, and a notice says so. -/
def append (bs : Bytes) (a : Accumulator) : Accumulator × List Notice :=
  if a.isComplete then (a, [.writeDropped bs.length])
  else ({ a with held := a.held.push bs }, [])

/-- Sets the end. A failure stays a failure. -/
def complete (a : Accumulator) : Accumulator :=
  { a with growth := if a.hasError then .failed else .complete }

/-- Sets the end because the stream failed. -/
def fail (a : Accumulator) : Accumulator := { a with growth := .failed }

/--
The bytes that a read produces from `held`, which is not empty. A line that the limit does not let
through to its end is cut there.
-/
def produce (r : ReadRequest) (held : ByteQueue) : Bytes :=
  match r.mode with
  | .init => []
  | .speculative | .bytes => held.first r.limit
  | .line => (held.line? r.limit).getD (held.first r.limit)
  | .exhaustive => held.bytes

/-- Reads. Nothing at hand is the end of the input if no more will come. -/
def read (r : ReadRequest) (a : Accumulator) : Reply × Accumulator :=
  if r.mode = .init then ({ output := [], status := .ok }, a)
  else if a.held.isEmpty then (Reply.failed (if a.isComplete then .eof else .wouldBlock), a)
  else
    let produced := produce r a.held
    (Reply.ok produced,
      if r.mode.consumes then { a with held := a.held.drop produced.length } else a)

/-- What a read of bytes produces is taken out of what is held. -/
theorem length_read_add_held_le {r : ReadRequest} (h : r.mode = .bytes) (a : Accumulator) :
    (a.read r).1.output.bytes.length + (a.read r).2.held.size ≤ a.held.size := by
  have hle := Bytes.length_limited_le r.limit a.held.bytes
  unfold read
  rw [if_neg (by rw [h]; decide)]
  split
  · simp [Reply.failed]
  · simp [h, Reply.ok, produce, ReadMode.consumes] at hle ⊢
    omega

end Accumulator
end RequestFeed
