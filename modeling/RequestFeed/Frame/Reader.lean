import RequestFeed.Frame.Queue
import RequestFeed.Read.Source
/-!
# Reading frames

A frame reader takes frames from a reader, waiting for it. An error of the reader costs nothing:
the bytes so far are kept, and the next call goes on where the last one stopped.
-/

namespace RequestFeed

/-- Takes frames from a reader. -/
structure FrameReader (ρ : Type) where
  reader : ρ
  /-- Bytes that have not yet become frames. -/
  backlog : ByteQueue := .empty
  maxPayload : Nat := Frame.defaultMaxPayload
  deriving DecidableEq, Repr

namespace FrameReader

/-- How much is read at once. -/
def chunk : Nat := 8192

section

variable {ρ : Type} [Reader ρ]

/-- The next frame, or none at the end of the input. The input must not end inside a frame. -/
def next? (s : FrameReader ρ) : Except FrameError (Option Frame) × FrameReader ρ :=
  match s.backlog.nextFrame s.maxPayload with
  | (.error e, backlog) => (.error e, { s with backlog })
  | (.ok (some f), backlog) => (.ok (some f), { s with backlog })
  | (.ok none, backlog) =>
    match _h : (Reader.read chunk s.reader).1 with
    | .ok [] =>
      (if backlog.size = 0 then .ok none else .error .connectionClosed,
        { s with reader := (Reader.read chunk s.reader).2, backlog })
    | .ok (b :: bs) =>
      next? { s with
        reader := (Reader.read chunk s.reader).2
        backlog := backlog.push (b :: bs) }
    | .error e =>
      if _hi : e.kind = .interrupted then
        next? { s with reader := (Reader.read chunk s.reader).2, backlog }
      else (.error (.io e), { s with reader := (Reader.read chunk s.reader).2, backlog })
termination_by Reader.remaining s.reader
decreasing_by
  · have := Reader.length_read_add_remaining_le chunk s.reader (b :: bs) _h
    simp only [List.length_cons] at this
    omega
  · exact Reader.remaining_lt_of_interrupted chunk s.reader e _h _hi

/-- The bytes that can still become frames. -/
def remaining (s : FrameReader ρ) : Nat := s.backlog.size + Reader.remaining s.reader

/-- A frame handed out is taken out of what remains. -/
theorem remaining_lt_of_next? {s : FrameReader ρ} {f : Frame} (h : s.next?.1 = .ok (some f)) :
    s.next?.2.remaining < s.remaining := by
  fun_induction next? s with
  | case1 => simp at h
  | case2 s g backlog hn =>
    have := ByteQueue.size_lt_of_nextFrame (f := g) (by rw [hn])
    rw [hn] at this
    simpa only [remaining, Nat.add_lt_add_iff_right] using this
  | case3 s => split at h <;> simp at h
  | case4 s backlog hn b bs hr ih =>
    have hle := ByteQueue.size_nextFrame_le s.maxPayload s.backlog
    have hread := Reader.length_read_add_remaining_le chunk s.reader (b :: bs) hr
    have := ih h
    rw [hn] at hle
    simp only [remaining, ByteQueue.size_push, List.length_cons] at this hle hread ⊢
    omega
  | case5 s backlog hn e hr hi ih =>
    have hle := ByteQueue.size_nextFrame_le s.maxPayload s.backlog
    have := Reader.remaining_lt_of_interrupted chunk s.reader e hr hi
    have := ih h
    rw [hn] at hle
    simp only [remaining] at this ⊢
    dsimp only at hle
    omega
  | case6 => simp at h

/-- All frames up to the end of the input or the first error. -/
def collect (s : FrameReader ρ) : List Frame × Option FrameError × FrameReader ρ :=
  match _h : s.next?.1 with
  | .ok none => ([], none, s.next?.2)
  | .error e => ([], some e, s.next?.2)
  | .ok (some f) =>
    let (frames, failure, left) := collect s.next?.2
    (f :: frames, failure, left)
termination_by s.remaining
decreasing_by exact remaining_lt_of_next? _h

/-- The next frame; the end of the input is an error too. -/
def next (s : FrameReader ρ) : Except FrameError Frame × FrameReader ρ :=
  match next? s with
  | (.ok (some f), s) => (.ok f, s)
  | (.ok none, s) => (.error .connectionClosed, s)
  | (.error e, s) => (.error e, s)

end

end FrameReader
end RequestFeed
