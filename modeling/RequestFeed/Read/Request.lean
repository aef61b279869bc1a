/-!
# Read requests

What a consumer asks of a source: in which mode to read, whether it may wait, and how much.
-/

namespace RequestFeed

/-- What a read asks for. -/
inductive ReadMode where
  /-- Nothing is moved; the source is only asked whether it is there. -/
  | init
  /-- Bytes up to the limit are consumed. -/
  | bytes
  /-- Bytes up to the limit are shown and stay. -/
  | speculative
  /-- Bytes through the next line feed are consumed. -/
  | line
  /-- Everything at hand is consumed. -/
  | exhaustive
  deriving DecidableEq, Repr

/-- The mode removes bytes from the source. -/
def ReadMode.consumes : ReadMode → Bool
  | .bytes | .line | .exhaustive => true
  | .init | .speculative => false

/-- Whether a read may wait. -/
inductive Blocking where
  | block
  | nonBlock
  deriving DecidableEq, Repr

/-- A read request. A limit of zero stands for no limit. -/
structure ReadRequest where
  mode : ReadMode
  blocking : Blocking
  limit : Nat
  deriving DecidableEq, Repr

end RequestFeed
