import RequestFeed.Frame.Queue
/-!
# Incremental decoding

A decoder is fed bytes in whatever pieces they arrive in and hands out whole frames. After an
error nobody knows where the next frame starts, so the decoder stays failed.
-/

namespace RequestFeed

/-- What a decoder knows. -/
inductive DecoderState where
  /-- The bytes that have not yet become frames. -/
  | reading (backlog : ByteQueue)
  | desynchronized
  deriving DecidableEq, Repr

/-- An incremental decoder. -/
structure Decoder where
  maxPayload : Nat := Frame.defaultMaxPayload
  state : DecoderState := .reading .empty
  deriving DecidableEq, Repr

namespace Decoder

/-- Adds bytes; a failed decoder takes no notice. -/
def feed (bs : Bytes) (d : Decoder) : Decoder :=
  match d.state with
  | .reading backlog => { d with state := .reading (backlog.push bs) }
  | .desynchronized => d

/-- The next frame, if a whole one is there. -/
def next (d : Decoder) : Except FrameError (Option Frame) × Decoder :=
  match d.state with
  | .desynchronized => (.error .desynchronized, d)
  | .reading backlog =>
    match backlog.nextFrame d.maxPayload with
    | (.ok found, backlog) => (.ok found, { d with state := .reading backlog })
    | (.error e, _) => (.error e, { d with state := .desynchronized })

def buffered (d : Decoder) : Nat :=
  match d.state with
  | .reading backlog => backlog.size
  | .desynchronized => 0

def hasFailed (d : Decoder) : Bool :=
  match d.state with
  | .reading _ => false
  | .desynchronized => true

/-- A frame handed out leaves fewer bytes behind. -/
theorem buffered_lt_of_next {d : Decoder} {f : Frame} (h : d.next.1 = .ok (some f)) :
    d.next.2.buffered < d.buffered := by
  unfold next at h ⊢
  split at h
  · simp at h
  next backlog hs =>
    cases hn : backlog.nextFrame d.maxPayload with
    | mk found left =>
      rw [hn] at h
      cases found with
      | error e => simp at h
      | ok found =>
        simp only [Except.ok.injEq] at h
        subst h
        have := ByteQueue.size_lt_of_nextFrame (f := f) (by rw [hn])
        simp only [hn] at this ⊢
        simpa [buffered, hs] using this

end Decoder
end RequestFeed
