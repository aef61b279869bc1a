import RequestFeed.Frame.Basic
/-!
# Projection errors

Why the events of a stream make no request.
-/

namespace RequestFeed

/-- Why a stream has no request. -/
inductive ProjectionError where
  | missingPart (name : String)
  /-- A part of the request line is empty, or holds white space or a control byte. -/
  | invalidPart (name value : String)
  /-- The value of a header would break the header lines. -/
  | invalidHeaderValue (name : String)
  /-- Body bytes came before the stream was opened. -/
  | dataBeforeOpening
  | openedTwice
  | reset (code : UInt32)
  | connectionFailed
  deriving DecidableEq, Repr

def ProjectionError.message : ProjectionError → String
  | .missingPart name => s!"missing '{name}' header"
  | .invalidPart name value => s!"invalid '{name}' header: {Escape.quoted value}"
  | .invalidHeaderValue name => s!"invalid value for header '{name}'"
  | .dataBeforeOpening => "data received before stream was opened"
  | .openedTwice => "stream opened twice"
  | .reset code => s!"stream reset by peer (code {code})"
  | .connectionFailed => "connection failed"

end RequestFeed
