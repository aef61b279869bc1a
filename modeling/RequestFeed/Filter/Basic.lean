import RequestFeed.Feed.Demultiplexer
import RequestFeed.Filter.Config
/-!
# Filters

A filter stands between a consumer that reads one stream of bytes and a source that may carry
many streams. It waits for the selection of a protocol. A plain connection is passed through. A
multiplexed one is demultiplexed, and the consumer reads one request after the other.

*Phases.* `awaitingSelection` comes first. `passThrough` and `active` follow from the protocol.
`exhausted` and `aborted` are the ends of an active filter: all input has been delivered, or the
input is unusable. Whoever reads from an aborted filter is told that the stream ends, and why.
-/

namespace RequestFeed

inductive FilterPhase where
  | awaitingSelection
  | passThrough
  | active
  | aborted (cause : ReadError)
  | exhausted
  deriving DecidableEq, Repr

structure Filter where
  context : ConnectionContext
  phase : FilterPhase := .awaitingSelection
  demux : Demultiplexer
  deriving DecidableEq, Repr

structure FilterRead (σ : Type) where
  reply : Except Violation Reply
  filter : Filter
  source : σ
  notices : List Notice := []

namespace Filter

/-- A filter with a configuration that has been checked. -/
def ofConfig (context : ConnectionContext) (c : FilterConfig) : Filter :=
  { context, demux := Demultiplexer.create c.readChunkSize c.maxPayloadSize }

def create (context : ConnectionContext) (c : FilterConfig) : Except FilterError Filter := do
  c.validate
  return ofConfig context c

def abortConnection (f : Filter) : Filter := { f with context := f.context.abort }

def setProtocol (p : ProtocolState) (f : Filter) : Filter :=
  { f with context := f.context.setProtocol p }

section

variable {σ : Type} [Source σ]

def abortReply (cause : ReadError) : Reply := { output := [.eos], status := .failed cause }

/-- Ends an active filter because its input is unusable. -/
def abort (cause : ReadError) (f : Filter) (s : σ) (notices : List Notice) : FilterRead σ :=
  { reply := .ok (abortReply cause), filter := { f with phase := .aborted cause }, source := s,
    notices }

/--
What an active filter answers after a read of the feed that left nothing more to deliver: the
status of the last read of the source, once all bytes of that read are used up.
-/
def settle (reply : Reply) (f : Filter) : Reply × Filter :=
  if f.demux.input.buffer ≠ [] then (reply, f)
  else
    let last := f.demux.input.last
    if last = .ok ∧ reply.output.size = 0 then ({ reply with status := .failed .wouldBlock }, f)
    else
      ({ reply with status := last },
        if last = .failed .eof ∧ f.demux.feed.hasError = false then { f with phase := .exhausted }
        else f)

/-- Answers from the feed after pumping. -/
def answer (r : ReadRequest) (f : Filter) (s : σ) (notices : List Notice) : FilterRead σ :=
  if f.demux.feed.hasError then abort .general { f with demux := f.demux.prune } s notices
  else if f.demux.failed && !f.demux.feed.hasData then
    abort .general { f with demux := f.demux.prune } s notices
  else
    let drained := f.demux.feed.drain r
    let f := { f with demux := { f.demux with feed := drained.feed } }
    let notices := notices ++ drained.notices
    match drained.reply with
    | .error v => { reply := .error v, filter := f, source := s, notices }
    | .ok reply =>
      if reply.status ≠ .ok ∨ drained.feed.hasData then
        { reply := .ok reply, filter := f, source := s, notices }
      else
        let (reply, f) := settle reply f
        { reply := .ok reply, filter := f, source := s, notices }

/-- Reads from an active filter: pumps until there is something to report, and reports it. -/
def readActive (r : ReadRequest) (f : Filter) (s : σ) : FilterRead σ :=
  let (demux, s, notices) := f.demux.pumpUntilReady r.blocking s
  answer r { f with demux } s notices

def passOn (r : ReadRequest) (f : Filter) (s : σ) : FilterRead σ :=
  match Source.violation r s with
  | some v => { reply := .error v, filter := f, source := s }
  | none => { reply := .ok (Source.read r s).1, filter := f, source := (Source.read r s).2 }

/-- Reads from a filter that is past protocol selection. -/
def readSelected (r : ReadRequest) (f : Filter) (s : σ) : FilterRead σ :=
  match f.phase with
  | .awaitingSelection | .passThrough => passOn r f s
  | .aborted cause => { reply := .ok (abortReply cause), filter := f, source := s }
  | .active =>
    if f.context.aborted || Source.aborted s then abort .connAborted f s []
    else if r.mode = .init then
      { reply := .ok { output := [], status := .ok }, filter := f, source := s }
    else readActive r f s
  | .exhausted =>
    if f.context.aborted || Source.aborted s then abort .connAborted f s []
    else if r.mode = .init then
      { reply := .ok { output := [], status := .ok }, filter := f, source := s }
    else { reply := .ok (Reply.failed .eof), filter := f, source := s }

/-- The request by which a filter finds out which protocol was selected. -/
def probe : ReadRequest := ⟨.speculative, .block, 1⟩

/-- The phase that follows from the protocol of the connection. -/
def select (f : Filter) : Filter × List Notice :=
  match f.context.protocol with
  | .pending => ({ f.setProtocol .plain with phase := .passThrough }, [.selectionIncomplete])
  | .plain => ({ f with phase := .passThrough }, [])
  | .multiplexed => ({ f with phase := .active }, [])

/-- Takes note of a protocol that a read has negotiated. -/
def note (reply : Reply) (f : Filter) : Filter :=
  match reply.negotiated with
  | some p => f.setProtocol p
  | none => f

/-- Answers a request, with as many reads of the source as that takes. -/
def read (r : ReadRequest) (f : Filter) (s : σ) : FilterRead σ :=
  if f.phase = .awaitingSelection then
    let (probed, s) := Source.read probe s
    let f := f.note probed
    match probed.status with
    | .failed e => { reply := .ok (Reply.failed e), filter := f, source := s }
    | .ok =>
      let (f, first) := f.select
      let result := readSelected r f s
      { result with notices := first ++ result.notices }
  else readSelected r f s

end

end Filter
end RequestFeed
