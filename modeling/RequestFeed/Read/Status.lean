import RequestFeed.IoError
/-!
# Read statuses

How a read ends. A status is a plain code: the last one that a source gave can be kept and given
again later.
-/

namespace RequestFeed

inductive ReadError where
  /-- There is nothing right now. -/
  | wouldBlock
  /-- This direction of input is broken for good. -/
  | general
  | connAborted
  | eof
  deriving DecidableEq, Repr

namespace ReadError

def message : ReadError → String
  | .wouldBlock => "resource temporarily unavailable"
  | .general => "general failure"
  | .connAborted => "connection aborted"
  | .eof => "end of input"

/-- The code of an input error; an interrupted call has none, because it is simply repeated. -/
def ofIo? (e : IoError) : Option ReadError :=
  match e.kind with
  | .interrupted => none
  | .wouldBlock | .timedOut => some .wouldBlock
  | .connectionAborted | .connectionReset => some .connAborted
  | .unexpectedEof => some .eof
  | _ => some .general

theorem ofIo?_eq_none_iff {e : IoError} : ofIo? e = none ↔ e.kind = .interrupted := by
  unfold ofIo?
  cases e.kind <;> simp

def isTransient : ReadError → Bool
  | .wouldBlock => true
  | _ => false

end ReadError

inductive Status where
  | ok
  | failed (error : ReadError)
  deriving DecidableEq, Repr

end RequestFeed
