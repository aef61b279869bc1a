import RequestFeed.Frame.Codec
import RequestFeed.Total
/-!
# Writing frames

A frame writer hands whole frames to a sink, which may take them in parts, and flushes the sink
after each. Interruptions, and a sink that asks to be tried again, are not errors.
-/

namespace RequestFeed

/-- A thing that bytes are written to. -/
class Sink (κ : Type) where
  /-- Offers bytes; the answer is how many were taken. -/
  write : Bytes → κ → Except IoError Nat × κ
  /-- Asks to pass on what was taken. -/
  flush : κ → Except IoError Unit × κ
  /-- A bound on the number of times that the sink asks to be tried again. -/
  patience : κ → Nat
  /-- A sink that takes bytes does not become more impatient. -/
  patience_write_le (bs : Bytes) (k : κ) : patience (write bs k).2 ≤ patience k
  /-- Requests to write again end. -/
  patience_write_lt (bs : Bytes) (k : κ) (e : IoError) : (write bs k).1 = .error e →
    (e.kind = .interrupted ∨ e.kind = .wouldBlock) → patience (write bs k).2 < patience k
  /-- Requests to flush again end. -/
  patience_flush_lt (k : κ) (e : IoError) : (flush k).1 = .error e →
    (e.kind = .interrupted ∨ e.kind = .wouldBlock) → patience (flush k).2 < patience k

namespace Sink

section

variable {κ : Type} [Sink κ]

/-- The sink only asks to be tried again. -/
def isRetry (e : IoError) : Prop := e.kind = .interrupted ∨ e.kind = .wouldBlock

instance (e : IoError) : Decidable (isRetry e) :=
  inferInstanceAs (Decidable (e.kind = .interrupted ∨ e.kind = .wouldBlock))

/-- Writes what a buffer holds from an offset on. A sink that takes none any more has closed the
connection. -/
def writeFrom (buffer : Bytes) (offset : Nat) (k : κ) : Except FrameError Unit × κ :=
  if _ho : offset < buffer.length then
    match _h : (write (buffer.drop offset) k).1 with
    | .ok 0 => (.error .connectionClosed, (write (buffer.drop offset) k).2)
    | .ok (n + 1) => writeFrom buffer (offset + (n + 1)) (write (buffer.drop offset) k).2
    | .error e =>
      if _hr : isRetry e then writeFrom buffer offset (write (buffer.drop offset) k).2
      else (.error (.io e), (write (buffer.drop offset) k).2)
  else (.ok (), k)
termination_by patience k + (buffer.length - offset)
decreasing_by
  · have := patience_write_le (buffer.drop offset) k
    omega
  · have := patience_write_lt (buffer.drop offset) k e _h _hr
    omega

def flushAll (k : κ) : Except FrameError Unit × κ :=
  match _h : (flush k).1 with
  | .ok () => (.ok (), (flush k).2)
  | .error e =>
    if _hr : isRetry e then flushAll (flush k).2 else (.error (.io e), (flush k).2)
termination_by patience k
decreasing_by exact patience_flush_lt k e _h _hr

/-- One call of the sink, and what follows on its answer. -/
theorem writeFrom_eq (buffer : Bytes) (offset : Nat) (k : κ) :
    writeFrom buffer offset k =
      if offset < buffer.length then
        match write (buffer.drop offset) k with
        | (.ok 0, after) => (.error .connectionClosed, after)
        | (.ok (n + 1), after) => writeFrom buffer (offset + (n + 1)) after
        | (.error e, after) =>
          if isRetry e then writeFrom buffer offset after else (.error (.io e), after)
      else (.ok (), k) := by
  have hwrite : write (buffer.drop offset) k =
      ((write (buffer.drop offset) k).1, (write (buffer.drop offset) k).2) := rfl
  rw [writeFrom]
  by_cases ho : offset < buffer.length
  · rw [dif_pos ho, if_pos ho]
    split
    next h => rw [hwrite, h]
    next n h => rw [hwrite, h]
    next e h => rw [hwrite, h, dite_eq_ite]
  · rw [dif_neg ho, if_neg ho]

theorem flushAll_eq (k : κ) :
    flushAll k =
      match flush k with
      | (.ok (), after) => (.ok (), after)
      | (.error e, after) => if isRetry e then flushAll after else (.error (.io e), after) := by
  have hflush : flush k = ((flush k).1, (flush k).2) := rfl
  rw [flushAll]
  split
  next h => rw [hflush, h]
  next e h => rw [hflush, h, dite_eq_ite]

end

end Sink

/-- Hands frames to a sink. -/
structure FrameWriter (κ : Type) where
  sink : κ
  maxPayload : Nat := Frame.defaultMaxPayload
  /-- Where frames are put together before they are handed over, one after the other. What is left
  here of a frame stays until the next one comes. -/
  scratch : Bytes := []
  deriving DecidableEq, Repr

namespace FrameWriter

section

variable {κ : Type}

/-- Adds the wire form of a frame to what is put together. -/
def put (f : Frame) (w : FrameWriter κ) : Except FrameError Unit × FrameWriter κ :=
  match f.encode with
  | .error e => (.error e, w)
  | .ok bs => (.ok (), { w with scratch := w.scratch ++ bs })

variable [Sink κ]

def flush (w : FrameWriter κ) : Except FrameError Unit × FrameWriter κ :=
  let (result, sink) := Sink.flushAll w.sink
  (result, { w with sink })

/-- Hands over what has been put together, and flushes the sink. -/
def send (w : FrameWriter κ) : Except FrameError Unit × FrameWriter κ :=
  match Sink.writeFrom w.scratch 0 w.sink with
  | (.error e, sink) => (.error e, { w with sink })
  | (.ok (), sink) => flush { w with sink }

/-- Writes a whole frame and flushes the sink. -/
def write (f : Frame) (w : FrameWriter κ) : Except FrameError Unit × FrameWriter κ :=
  if w.maxPayload < f.payload.length then
    (.error (.payloadTooLarge f.payload.length w.maxPayload), w)
  else
    match put f { w with scratch := [] } with
    | (.error e, w) => (.error e, w)
    | (.ok (), w) => send w

end

end FrameWriter

/-- How a scripted sink answers a write. -/
inductive WriteAnswer where
  /-- Takes at most so many bytes. -/
  | takes (limit : Nat)
  | fails (error : IoError)
  deriving DecidableEq, Repr

/-- How a scripted sink answers a flush. -/
inductive FlushAnswer where
  | succeeds
  | fails (error : IoError)
  deriving DecidableEq, Repr

/--
A sink that answers from lists, and after their end takes everything. Every finite behaviour of a
sink is the behaviour of one of these.
-/
structure ScriptedSink where
  writes : List WriteAnswer := []
  flushes : List FlushAnswer := []
  /-- The bytes taken so far, in pieces, the latest first. -/
  taken : List Bytes := []
  size : Nat := 0
  size_eq : size = total List.length taken := by rfl
  flushed : Nat := 0
  deriving DecidableEq, Repr

namespace ScriptedSink

def take (bs : Bytes) (k : ScriptedSink) : Except IoError Nat × ScriptedSink :=
  (.ok bs.length,
    { k with
      taken := bs :: k.taken
      size := bs.length + k.size
      size_eq := by rw [k.size_eq, total_cons] })

def write (bs : Bytes) (k : ScriptedSink) : Except IoError Nat × ScriptedSink :=
  match k.writes with
  | [] => k.take bs
  | .takes limit :: rest => take (bs.take limit) { k with writes := rest }
  | .fails e :: rest => (.error e, { k with writes := rest })

def flush (k : ScriptedSink) : Except IoError Unit × ScriptedSink :=
  match k.flushes with
  | [] => (.ok (), { k with flushed := k.flushed + 1 })
  | .succeeds :: rest => (.ok (), { k with flushes := rest, flushed := k.flushed + 1 })
  | .fails e :: rest => (.error e, { k with flushes := rest })

/-- All bytes taken so far. -/
def bytes (k : ScriptedSink) : Bytes := k.taken.reverse.flatten

instance : Sink ScriptedSink where
  write := write
  flush := flush
  patience k := k.writes.length + k.flushes.length
  patience_write_le bs k := by
    unfold write
    split <;> simp_all [take]
  patience_write_lt bs k e h _ := by
    unfold write at h ⊢
    split at h <;> simp_all [take]
  patience_flush_lt k e h _ := by
    unfold flush at h ⊢
    split at h <;> simp_all

end ScriptedSink
end RequestFeed
