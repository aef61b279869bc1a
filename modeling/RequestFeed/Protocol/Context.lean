/-!
# Connection contexts

What the parties to a connection know about it: the outcome of protocol selection, and whether
the connection has been given up.
-/

namespace RequestFeed

/-- The outcome of protocol selection. -/
inductive ProtocolState where
  | pending
  /-- The connection carries many streams in frames. -/
  | multiplexed
  | plain
  deriving DecidableEq, Repr

/-- The state of a connection that is shared by all that work on it. -/
structure ConnectionContext where
  protocol : ProtocolState := .pending
  aborted : Bool := false
  deriving DecidableEq, Repr

namespace ConnectionContext

def setProtocol (p : ProtocolState) (c : ConnectionContext) : ConnectionContext :=
  { c with protocol := p }

/-- Gives the connection up. There is no way back. -/
def abort (c : ConnectionContext) : ConnectionContext := { c with aborted := true }

end ConnectionContext
end RequestFeed
