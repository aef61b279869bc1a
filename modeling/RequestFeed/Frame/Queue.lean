import RequestFeed.ByteQueue
import RequestFeed.Frame.Codec
/-!
# Frames in byte queues

Takes the next frame out of a queue of bytes, when a whole one is there. Only the bytes that
decide whether one is there are brought together, so a frame that arrives byte by byte is not
copied with every byte.

*Results.* `nextFrame_fst` and `bytes_nextFrame`: what is found, and what is left, is what
`Frame.decode` finds in the bytes and leaves of them.
-/

namespace RequestFeed
namespace ByteQueue

namespace Pieces

theorem extent_front_gather (max : Nat) (p : Pieces) :
    Frame.extent max (p.gather Frame.headerSize).front = Frame.extent max p.bytes := by
  rcases Nat.lt_or_ge p.size Frame.headerSize with h | h
  · have hf : (p.gather Frame.headerSize).front.length ≤ p.size := by
      rw [← size_gather Frame.headerSize p, (p.gather Frame.headerSize).size_eq]
      exact Nat.le_add_right _ _
    have hshort : Bytes.cut? Frame.headerSize (p.gather Frame.headerSize).front = none :=
      Bytes.cut?_eq_none_iff.mpr (by omega)
    have hbytes : Bytes.cut? Frame.headerSize p.bytes = none :=
      Bytes.cut?_eq_none_iff.mpr (by rwa [length_bytes])
    simp only [Frame.extent, hshort, hbytes]
  · rw [← bytes_gather Frame.headerSize p, bytes_eq,
      Frame.extent_append (le_length_front_gather h)]

theorem size_sub_wireSize {max : Nat} {p : Pieces} {f : Frame} {rest : Bytes}
    (h : Frame.decode max p.front = .frame f rest) :
    p.size - f.wireSize = rest.length + total List.length p.later := by
  rw [p.size_eq, Frame.length_eq_of_decode_eq_frame h]
  omega

/-- The next frame, if the first bytes hold a whole one. -/
def takeFront (max : Nat) (p : Pieces) : Except FrameError (Option Frame) × Pieces :=
  match h : Frame.decode max p.front with
  | .incomplete => (.ok none, p)
  | .rejected e => (.error e, p)
  | .frame f rest => (.ok (some f), ⟨rest, p.later, p.size - f.wireSize, size_sub_wireSize h⟩)

/-- No bytes that the front lacks could change what is found in it. -/
def IsSettled (max : Nat) (p : Pieces) : Prop :=
  Frame.decode max p.bytes = (Frame.decode max p.front).extend p.later.reverse.flatten

theorem takeFront_of_isSettled {max : Nat} {p : Pieces} (h : p.IsSettled max) :
    (p.takeFront max).1 = (Frame.decode max p.bytes).answer ∧
      (p.takeFront max).2.bytes = (Frame.decode max p.bytes).left p.bytes := by
  rw [h]
  unfold takeFront
  split
  next hd => simp [hd, Frame.Decoded.extend, Frame.Decoded.answer, Frame.Decoded.left]
  next e hd => simp [hd, Frame.Decoded.extend, Frame.Decoded.answer, Frame.Decoded.left]
  next f rest hd =>
    simp [hd, Frame.Decoded.extend, Frame.Decoded.answer, Frame.Decoded.left, bytes_eq]

/-- Bringing the bytes that decide to the front settles what is found. -/
theorem isSettled_gather {max : Nat} {p : Pieces} (h : Frame.extent max p.bytes ≤ p.size) :
    (p.gather (Frame.extent max p.bytes)).IsSettled max := by
  have hfront := le_length_front_gather h
  have hextent : Frame.extent max (p.gather (Frame.extent max p.bytes)).front =
      Frame.extent max p.bytes := by
    conv => rhs; rw [← bytes_gather (Frame.extent max p.bytes) p, bytes_eq]
    rw [Frame.extent_append]
    exact Nat.le_trans (Frame.headerSize_le_extent max p.bytes) hfront
  rw [IsSettled, bytes_eq]
  exact Frame.decode_append (by rwa [hextent]) _

/--
The next frame, if a whole one is there. The bytes that decide are brought to the front only when
all of them are there.
-/
def nextFrame (max : Nat) (p : Pieces) : Except FrameError (Option Frame) × Pieces :=
  let p := p.gather Frame.headerSize
  let extent := Frame.extent max p.front
  if p.size < extent then (.ok none, p) else (p.gather extent).takeFront max

theorem nextFrame_eq (max : Nat) (p : Pieces) :
    (p.nextFrame max).1 = (Frame.decode max p.bytes).answer ∧
      (p.nextFrame max).2.bytes = (Frame.decode max p.bytes).left p.bytes := by
  have hextent := extent_front_gather max p
  rw [← bytes_gather Frame.headerSize p] at hextent ⊢
  unfold nextFrame
  dsimp only
  rw [hextent]
  split
  next h =>
    rw [Frame.decode_eq_incomplete_iff.mpr (by rwa [length_bytes])]
    exact ⟨rfl, rfl⟩
  next h =>
    have := takeFront_of_isSettled (isSettled_gather (Nat.not_lt.mp h))
    simpa only [bytes_gather] using this

theorem nextFrame_fst (max : Nat) (p : Pieces) :
    (p.nextFrame max).1 = (Frame.decode max p.bytes).answer := (nextFrame_eq max p).1

theorem bytes_nextFrame (max : Nat) (p : Pieces) :
    (p.nextFrame max).2.bytes = (Frame.decode max p.bytes).left p.bytes := (nextFrame_eq max p).2

/-- The next frame of some pieces, and what is left as a queue. -/
def popFrame (max : Nat) (p : Pieces) : Except FrameError (Option Frame) × ByteQueue :=
  let (found, p) := p.nextFrame max
  (found, ofPieces p)

theorem popFrame_congr (max : Nat) {a b : Pieces} (h : a.bytes = b.bytes) :
    a.popFrame max = b.popFrame max := by
  refine Prod.ext ?_ (ext ?_)
  · have hfound := a.nextFrame_fst max
    rw [h, ← b.nextFrame_fst max] at hfound
    exact hfound
  · have hleft := a.bytes_nextFrame max
    rw [h, ← b.bytes_nextFrame max] at hleft
    exact hleft

end Pieces

/-- The next frame, if a whole one is there, and what is left. -/
def nextFrame (max : Nat) (q : ByteQueue) : Except FrameError (Option Frame) × ByteQueue :=
  Quotient.lift (Pieces.popFrame max) (fun _ _ h => Pieces.popFrame_congr max h) q

/-- What is found is what decoding finds in the bytes. -/
theorem nextFrame_fst (max : Nat) (q : ByteQueue) :
    (q.nextFrame max).1 = (Frame.decode max q.bytes).answer := by
  induction q using Quotient.ind with
  | _ p => exact p.nextFrame_fst max

/-- The bytes that a frame does not take up stay. -/
theorem bytes_nextFrame (max : Nat) (q : ByteQueue) :
    (q.nextFrame max).2.bytes = (Frame.decode max q.bytes).left q.bytes := by
  induction q using Quotient.ind with
  | _ p => exact p.bytes_nextFrame max

/-- A frame handed out leaves fewer bytes behind. -/
theorem size_lt_of_nextFrame {max : Nat} {q : ByteQueue} {f : Frame}
    (h : (q.nextFrame max).1 = .ok (some f)) : (q.nextFrame max).2.size < q.size := by
  rw [← length_bytes, ← length_bytes, bytes_nextFrame]
  rw [nextFrame_fst] at h
  cases hd : Frame.decode max q.bytes with
  | incomplete => simp [hd, Frame.Decoded.answer] at h
  | rejected e => simp [hd, Frame.Decoded.answer] at h
  | frame g rest => exact Frame.length_lt_of_decode_eq_frame hd

/-- Bytes are taken out only by frames. -/
theorem size_nextFrame_le (max : Nat) (q : ByteQueue) : (q.nextFrame max).2.size ≤ q.size := by
  rw [← length_bytes, ← length_bytes, bytes_nextFrame]
  cases hd : Frame.decode max q.bytes with
  | incomplete => exact Nat.le_refl _
  | rejected e => exact Nat.le_refl _
  | frame g rest => exact Nat.le_of_lt (Frame.length_lt_of_decode_eq_frame hd)

end ByteQueue
end RequestFeed
