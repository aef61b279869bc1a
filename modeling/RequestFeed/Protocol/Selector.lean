import RequestFeed.Protocol.Context
import RequestFeed.Protocol.Name
/-!
# Protocol selection

Of the protocols that a client offers, the one that this side likes best is selected. When none
of them is multiplexed, the connection carries plain requests.
-/

namespace RequestFeed

/-- The multiplexed protocols of this side, the best first. -/
structure ProtocolSelector where
  names : List String
  deriving DecidableEq, Repr

namespace ProtocolSelector

def ofNames (names : List String) : Except ProtocolNameError ProtocolSelector := do
  ProtocolName.checkAll names
  return ⟨names⟩

/-- The best of the protocols offered. -/
def select (offered : List String) (s : ProtocolSelector) : Except ProtocolNameError String := do
  ProtocolName.checkAll offered
  return (s.names.find? offered.contains).getD ProtocolName.fallback

/-- The protocol is one of the multiplexed ones. -/
def isMultiplexed (name : String) (s : ProtocolSelector) : Bool := s.names.contains name

/-- What it means for a connection that a protocol was selected. -/
def outcome (name : String) (s : ProtocolSelector) : ProtocolState :=
  if s.isMultiplexed name then .multiplexed else .plain

/-- Records on a connection that a protocol was selected. -/
def apply (name : String) (s : ProtocolSelector) (c : ConnectionContext) : ConnectionContext :=
  c.setProtocol (s.outcome name)

end ProtocolSelector
end RequestFeed
