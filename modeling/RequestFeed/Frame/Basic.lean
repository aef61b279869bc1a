import RequestFeed.Header.Block
import RequestFeed.IoError
/-!
# Frames

A connection carries many streams in frames. A frame belongs to one stream, or to the connection
itself, which has the stream number zero; its kind says what its payload means.
-/

namespace RequestFeed

abbrev StreamId := UInt32

namespace StreamId

/-- The number that stands for the connection itself. -/
def connection : StreamId := 0

/-- The number stands for the connection itself. -/
def isConnection (id : StreamId) : Bool := id == connection

/-- The stream was opened by the client, whose numbers are odd. -/
def isClientInitiated (id : StreamId) : Bool := id % 2 == 1

end StreamId

/-- What a frame is for. -/
inductive FrameKind where
  /-- Opens a stream; the payload is a header block. -/
  | opening
  | data
  /-- Ends a stream abnormally; the payload is a code. -/
  | reset
  /-- Asks whether the connection is alive. -/
  | ping
  /-- No new streams will follow; the payload is the last stream number. -/
  | goAway
  deriving DecidableEq, Repr

namespace FrameKind

def code : FrameKind → UInt8
  | .opening => 1
  | .data => 2
  | .reset => 3
  | .ping => 4
  | .goAway => 5

def ofCode? : UInt8 → Option FrameKind
  | 1 => some .opening
  | 2 => some .data
  | 3 => some .reset
  | 4 => some .ping
  | 5 => some .goAway
  | _ => none

@[simp] theorem ofCode?_code (k : FrameKind) : ofCode? k.code = some k := by
  cases k <;> rfl

def name : FrameKind → String
  | .opening => "OPEN"
  | .data => "DATA"
  | .reset => "RESET"
  | .ping => "PING"
  | .goAway => "GOAWAY"

/-- Frames of this kind belong to the connection and not to a stream. -/
def isConnectionLevel : FrameKind → Bool
  | .ping | .goAway => true
  | .opening | .data | .reset => false

/-- The payload of this kind is a number of four bytes. -/
def carriesCode : FrameKind → Bool
  | .reset | .goAway => true
  | .opening | .data | .ping => false

/-- The flag on the last frame of a stream. -/
def finFlag : UInt8 := 1

/-- The flags that a frame of this kind may have. -/
def allowedFlags : FrameKind → UInt8
  | .opening | .data => finFlag
  | .reset | .ping | .goAway => 0

end FrameKind

/-- Why frames cannot be written, read or routed. -/
inductive FrameError where
  | invalidMagic
  | payloadTooLarge (size max : Nat)
  | unknownKind (code : UInt8)
  | invalidFlags (kind : FrameKind) (flags : UInt8)
  /-- A stream frame on the connection, or a connection frame on a stream. -/
  | reservedStream (kind : FrameKind) (stream : StreamId)
  /-- A frame for a stream that has finished. -/
  | streamClosed (stream : StreamId)
  /-- A stream was opened after the peer had said that there would be none. -/
  | streamAfterGoAway (stream : StreamId)
  | invalidHeaderBlock (cause : HeaderError)
  /-- The payload of a kind that carries a number has the wrong length. -/
  | malformedPayload (kind : FrameKind) (length : Nat)
  | io (cause : IoError)
  /-- Decoding failed before, and where the next frame starts is unknown. -/
  | desynchronized
  /-- The input ended inside a frame. -/
  | connectionClosed
  deriving DecidableEq, Repr

def FrameError.message : FrameError → String
  | .invalidMagic => "invalid frame magic (expected 0x4d58 \"MX\")"
  | .payloadTooLarge size max => s!"payload too large ({size} bytes, max {max})"
  | .unknownKind code => s!"unknown frame kind 0x{Hex.renderByte code}"
  | .invalidFlags kind flags =>
    s!"invalid flags 0x{Hex.renderByte flags} for {kind.name} frame"
  | .reservedStream kind stream => s!"{kind.name} frame not allowed on stream {stream}"
  | .streamClosed stream => s!"frame for closed stream {stream}"
  | .streamAfterGoAway stream => s!"stream {stream} opened after goaway"
  | .invalidHeaderBlock cause => s!"invalid header block: {cause.message}"
  | .malformedPayload kind length => s!"malformed {kind.name} payload ({length} bytes)"
  | .io cause => s!"frame I/O error: {cause.text}"
  | .desynchronized => "decoder failed earlier; byte stream cannot be resynchronized"
  | .connectionClosed => "connection closed (incomplete frame)"

structure Frame where
  kind : FrameKind
  flags : UInt8
  stream : StreamId
  payload : Bytes
  deriving DecidableEq, Repr

namespace Frame

def headerSize : Nat := 12

/-- The length of the longest payload that is accepted unless another is set. -/
def defaultMaxPayload : Nat := 16777216

/-- The flags of a frame that may be the last of its stream. -/
def flagsOf (fin : Bool) : UInt8 := if fin then FrameKind.finFlag else 0

def ofHeaders (stream : StreamId) (headers : HeaderBlock) (fin : Bool) : Frame :=
  ⟨.opening, flagsOf fin, stream, headers.encode⟩

def ofData (stream : StreamId) (payload : Bytes) (fin : Bool) : Frame :=
  ⟨.data, flagsOf fin, stream, payload⟩

/-- The frame that ends a stream abnormally. -/
def ofReset (stream : StreamId) (code : UInt32) : Frame :=
  ⟨.reset, 0, stream, Bytes.little 4 code.toNat⟩

/-- A frame that asks whether the connection is alive. -/
def ofPing (payload : Bytes) : Frame := ⟨.ping, 0, StreamId.connection, payload⟩

/-- The frame that says that no stream after `last` will be opened. -/
def ofGoAway (last : StreamId) : Frame :=
  ⟨.goAway, 0, StreamId.connection, Bytes.little 4 last.toNat⟩

/-- The frame is the last of its stream. -/
def isFin (f : Frame) : Bool := f.flags &&& FrameKind.finFlag != 0

/-- The number of bytes that the frame takes up on the wire. -/
def wireSize (f : Frame) : Nat := headerSize + f.payload.length

def headerBlock (f : Frame) : Except FrameError HeaderBlock :=
  match HeaderBlock.decode f.payload with
  | .ok block => .ok block
  | .error e => .error (.invalidHeaderBlock e)

/-- The payload as a number of four bytes. -/
def code (f : Frame) : Except FrameError UInt32 :=
  if f.payload.length = 4 then .ok (UInt32.ofNat (Bytes.ofLittle f.payload))
  else .error (.malformedPayload f.kind f.payload.length)

end Frame
end RequestFeed
