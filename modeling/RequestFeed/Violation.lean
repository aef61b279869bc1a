/-!
# Violations

What must never happen between the parts of the program. A violation is no answer: whoever brings
it about gets none.
-/

namespace RequestFeed

/-- A breach of a contract between the parts of the program. -/
inductive Violation where
  /-- A feed that had failed was drained. -/
  | drainOfFailedFeed
  /-- Bytes were written to an output after its end. -/
  | writeAfterEnd
  /-- A buffer was asked for that no memory has room for. -/
  | bufferTooLarge
  deriving DecidableEq, Repr

def Violation.message : Violation → String
  | .drainOfFailedFeed => "drain called on a failed stream queue"
  | .writeAfterEnd => "write to completed accumulator"
  | .bufferTooLarge => "capacity overflow"

end RequestFeed
