import RequestFeed.Filter.Basic
import RequestFeed.Read.Lookahead
import RequestFeed.Text.Record
/-!
# Descriptions

How filters and sources are shown to those who look into a running program.
-/

namespace RequestFeed

def ReadError.name : ReadError → String
  | .wouldBlock => "WouldBlock"
  | .general => "General"
  | .connAborted => "ConnAborted"
  | .eof => "Eof"

def ProtocolState.name : ProtocolState → String
  | .pending => "Pending"
  | .multiplexed => "Multiplexed"
  | .plain => "Plain"

def FilterPhase.name : FilterPhase → String
  | .awaitingSelection => "AwaitingSelection"
  | .passThrough => "PassThrough"
  | .active => "Active"
  | .aborted cause => s!"Aborted({cause.name})"
  | .exhausted => "Exhausted"

/-- A filter on one line. -/
def Filter.describe (f : Filter) : String :=
  RecordText.render "InputFilter"
    [("state", f.phase.name), ("protocol", f.context.protocol.name),
      ("live_streams", toString f.demux.router.live.length),
      ("pumps", toString f.demux.pumps)]

/-- A source over a reader on one line, under a name. -/
def Lookahead.describe {ρ : Type} (name : String) (s : Lookahead ρ) : String :=
  RecordText.render name
    [("lookahead", toString s.held.size), ("eof", toString s.ended),
      ("aborted", toString s.aborted)]

end RequestFeed
