import RequestFeed.Read.Brigade
import RequestFeed.Read.Request
import RequestFeed.Read.Status
import RequestFeed.Protocol.Context
import RequestFeed.Violation
/-!
# Sources and readers

A *source* answers read requests with buckets and a status; filters read from a source and are
read like one. A *reader* is the simpler thing below: it fills a buffer or fails.

Both are described by what one call does to their state. Both say, by `remaining`, how much they
can still give; the laws of the classes make every loop over reads end. A source may have no room
for a request at all: `Source.violation` tells, and then the request must not be made.
-/

namespace RequestFeed

structure Reply where
  output : Brigade
  status : Status
  /-- The outcome of protocol selection, if the read brought it about. -/
  negotiated : Option ProtocolState := none
  deriving DecidableEq, Repr

namespace Reply

/-- A read that produced these bytes. -/
def ok (bytes : Bytes) : Reply := { output := Brigade.ofBytes bytes, status := .ok }

/-- A read that produced nothing. -/
def failed (e : ReadError) : Reply := { output := [], status := .failed e }

end Reply

/-- A thing that answers read requests. -/
class Source (σ : Type) where
  read : ReadRequest → σ → Reply × σ
  /-- What is wrong with a request that must not be made. -/
  violation : ReadRequest → σ → Option Violation
  /-- The connection behind the source is gone. -/
  aborted : σ → Bool
  /-- A bound on the number of bytes still to come. -/
  remaining : σ → Nat
  /-- Requests of a size that memory has room for can be made. -/
  violation_eq_none (r : ReadRequest) (s : σ) :
    r.limit ≤ Bytes.maxLength → violation r s = none
  /-- What a read delivers is taken out of what remains. -/
  size_read_add_remaining_le (r : ReadRequest) (s : σ) : r.mode = .bytes →
    Brigade.size (read r s).1.output + remaining (read r s).2 ≤ remaining s
  /-- No read adds to what remains. -/
  remaining_read_le (r : ReadRequest) (s : σ) : remaining (read r s).2 ≤ remaining s

/-- A thing that fills buffers. -/
class Reader (ρ : Type) where
  /--
  Fills a buffer of the given size, or fails. No bytes mean that there is no more input.
  -/
  read : Nat → ρ → Except IoError Bytes × ρ
  /-- A bound on the number of bytes and interruptions still to come. -/
  remaining : ρ → Nat
  /-- A read does not fill more than the buffer. -/
  length_read_le (n : Nat) (r : ρ) (bs : Bytes) :
    (read n r).1 = .ok bs → bs.length ≤ n
  /-- What a read delivers is taken out of what remains. -/
  length_read_add_remaining_le (n : Nat) (r : ρ) (bs : Bytes) :
    (read n r).1 = .ok bs → bs.length + remaining (read n r).2 ≤ remaining r
  /-- A failure adds nothing to what remains. -/
  remaining_le_of_error (n : Nat) (r : ρ) (e : IoError) :
    (read n r).1 = .error e → remaining (read n r).2 ≤ remaining r
  /-- Interruptions end. -/
  remaining_lt_of_interrupted (n : Nat) (r : ρ) (e : IoError) :
    (read n r).1 = .error e → e.kind = .interrupted → remaining (read n r).2 < remaining r

end RequestFeed
