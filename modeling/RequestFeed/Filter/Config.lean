import RequestFeed.Frame.Basic
import RequestFeed.Protocol.Selector
/-!
# Filter configurations

The settings of a filter, and what can go wrong while one is set up.
-/

namespace RequestFeed

/-- What is wrong with the numbers of a configuration. -/
inductive ConfigError where
  | noChunk
  | noPayload
  | noProtocol
  deriving DecidableEq, Repr

def ConfigError.message : ConfigError → String
  | .noChunk => "read_chunk_size must be greater than zero"
  | .noPayload => "max_payload_size must be greater than zero"
  | .noProtocol => "at least one multiplexed protocol is required"

/-- Why a filter cannot be set up. -/
inductive FilterError where
  | invalidConfig (cause : ConfigError)
  | invalidProtocol (cause : ProtocolNameError)
  | frame (cause : FrameError)
  | io (cause : IoError)
  /-- A configuration is not what its format calls for. -/
  | json
  deriving DecidableEq, Repr

def FilterError.message : FilterError → String
  | .invalidConfig cause => s!"invalid config: {cause.message}"
  | .invalidProtocol cause => s!"invalid protocol name: {cause.message}"
  | .frame cause => s!"frame error: {cause.message}"
  | .io cause => s!"io error: {cause.text}"
  | .json => "json error: malformed document"

structure FilterConfig where
  /-- How many bytes are asked for at once. -/
  readChunkSize : Nat := 8192
  maxPayloadSize : Nat := Frame.defaultMaxPayload
  /-- The multiplexed protocols, the best first. -/
  protocols : List String := [ProtocolName.standard]
  deriving DecidableEq, Repr

namespace FilterConfig

def validate (c : FilterConfig) : Except FilterError Unit :=
  if c.readChunkSize = 0 then .error (.invalidConfig .noChunk)
  else if c.maxPayloadSize = 0 then .error (.invalidConfig .noPayload)
  else if c.protocols = [] then .error (.invalidConfig .noProtocol)
  else
    match ProtocolName.checkAll c.protocols with
    | .ok () => .ok ()
    | .error e => .error (.invalidProtocol e)

def selector (c : FilterConfig) : Except FilterError ProtocolSelector :=
  match ProtocolSelector.ofNames c.protocols with
  | .ok s => .ok s
  | .error e => .error (.invalidProtocol e)

end FilterConfig
end RequestFeed
