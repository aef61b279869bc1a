import RequestFeed.Frame.Decoder
/-!
# Decoding frame after frame

*Results.*
* `Frame.decodeAll_append`: decoding goes on where it stopped when more bytes come in.
* `Frame.decodeAll_append_of_rejected`: what is no frame stays none.
* `Decoder.next_of_incomplete`, `Decoder.next_of_rejected` and `Decoder.next_of_frame`: an
  incremental decoder answers what decoding finds at the front of its backlog. The answer tells
  what was found (`Decoder.decode_of_next_eq_none` and the two that follow it).
-/

namespace RequestFeed

namespace Frame

variable {max : Nat} {buffer : Bytes}

theorem decodeAll_of_incomplete (h : decode max buffer = .incomplete) :
    decodeAll max buffer = ([], .incomplete, buffer) := by
  rw [decodeAll]
  split <;> simp_all

theorem decodeAll_of_rejected {e : FrameError} (h : decode max buffer = .rejected e) :
    decodeAll max buffer = ([], .rejected e, buffer) := by
  rw [decodeAll]
  split <;> simp_all

theorem decodeAll_of_frame {f : Frame} {rest : Bytes} (h : decode max buffer = .frame f rest) :
    decodeAll max buffer =
      (f :: (decodeAll max rest).1, (decodeAll max rest).2.1, (decodeAll max rest).2.2) := by
  rw [decodeAll]
  split <;> simp_all

/-- What has been decided about a buffer stays decided when more bytes come in. -/
theorem decode_append_of_ne_incomplete (h : decode max buffer ≠ .incomplete) (more : Bytes) :
    decode max (buffer ++ more) = (decode max buffer).extend more := by
  refine decode_append ?_ more
  rw [Ne, decode_eq_incomplete_iff] at h
  omega

/-- Decoding goes on where it stopped: what was left is decoded with the bytes that come in. -/
theorem decodeAll_append (h : (decodeAll max buffer).2.1 = .incomplete) (more : Bytes) :
    decodeAll max (buffer ++ more) =
      ((decodeAll max buffer).1 ++ (decodeAll max ((decodeAll max buffer).2.2 ++ more)).1,
        (decodeAll max ((decodeAll max buffer).2.2 ++ more)).2) := by
  fun_induction decodeAll max buffer with
  | case1 buffer hd => rfl
  | case2 buffer e hd => simp at h
  | case3 buffer f rest hd frames ending left hrest ih =>
    have happ : decode max (buffer ++ more) = .frame f (rest ++ more) := by
      rw [decode_append_of_ne_incomplete (by simp [hd]), hd]
      rfl
    rw [hrest] at ih
    rw [decodeAll_of_frame happ, ih h]
    rfl

/-- Decoding that has met something that is no frame meets it again when more bytes come in. -/
theorem decodeAll_append_of_rejected {e : FrameError}
    (h : (decodeAll max buffer).2.1 = .rejected e) (more : Bytes) :
    (decodeAll max (buffer ++ more)).1 = (decodeAll max buffer).1 ∧
      (decodeAll max (buffer ++ more)).2.1 = .rejected e := by
  fun_induction decodeAll max buffer with
  | case1 buffer hd => simp at h
  | case2 buffer e' hd =>
    have happ : decode max (buffer ++ more) = .rejected e' := by
      rw [decode_append_of_ne_incomplete (by simp [hd]), hd]
      rfl
    rw [decodeAll_of_rejected happ]
    exact ⟨rfl, h⟩
  | case3 buffer f rest hd frames ending left hrest ih =>
    have happ : decode max (buffer ++ more) = .frame f (rest ++ more) := by
      rw [decode_append_of_ne_incomplete (by simp [hd]), hd]
      rfl
    rw [hrest] at ih
    obtain ⟨hframes, hending⟩ := ih h
    rw [decodeAll_of_frame happ]
    exact ⟨by simp [hframes], hending⟩

end Frame

/-- What is found in a queue, and what is left of it, in terms of its bytes. -/
theorem ByteQueue.nextFrame_eq (max : Nat) (q : ByteQueue) :
    q.nextFrame max =
      ((Frame.decode max q.bytes).answer, .ofBytes ((Frame.decode max q.bytes).left q.bytes)) :=
  Prod.ext (q.nextFrame_fst max) (ByteQueue.ext (q.bytes_nextFrame max))

namespace Decoder

variable {d : Decoder} {backlog : ByteQueue}

theorem next_of_incomplete (h : d.state = .reading backlog)
    (hd : Frame.decode d.maxPayload backlog.bytes = .incomplete) : d.next = (.ok none, d) := by
  cases d
  simp only at h hd
  simp [next, h, ByteQueue.nextFrame_eq, hd, Frame.Decoded.answer, Frame.Decoded.left]

theorem next_of_rejected {e : FrameError} (h : d.state = .reading backlog)
    (hd : Frame.decode d.maxPayload backlog.bytes = .rejected e) :
    d.next = (.error e, { d with state := .desynchronized }) := by
  simp [next, h, ByteQueue.nextFrame_eq, hd, Frame.Decoded.answer]

theorem next_of_frame {f : Frame} {rest : Bytes} (h : d.state = .reading backlog)
    (hd : Frame.decode d.maxPayload backlog.bytes = .frame f rest) :
    d.next = (.ok (some f), { d with state := .reading (.ofBytes rest) }) := by
  simp [next, h, ByteQueue.nextFrame_eq, hd, Frame.Decoded.answer, Frame.Decoded.left]

theorem decode_of_next_eq_none (h : d.state = .reading backlog) (hn : d.next.1 = .ok none) :
    Frame.decode d.maxPayload backlog.bytes = .incomplete := by
  cases hd : Frame.decode d.maxPayload backlog.bytes with
  | incomplete => rfl
  | rejected e => simp [next_of_rejected h hd] at hn
  | frame f rest => simp [next_of_frame h hd] at hn

theorem decode_of_next_eq_error {e : FrameError} (h : d.state = .reading backlog)
    (hn : d.next.1 = .error e) : Frame.decode d.maxPayload backlog.bytes = .rejected e := by
  cases hd : Frame.decode d.maxPayload backlog.bytes with
  | incomplete => simp [next_of_incomplete h hd] at hn
  | rejected e' =>
    rw [next_of_rejected h hd, Except.error.injEq] at hn
    rw [hn]
  | frame f rest => simp [next_of_frame h hd] at hn

theorem decode_of_next_eq_frame {f : Frame} (h : d.state = .reading backlog)
    (hn : d.next.1 = .ok (some f)) :
    ∃ rest, Frame.decode d.maxPayload backlog.bytes = .frame f rest := by
  cases hd : Frame.decode d.maxPayload backlog.bytes with
  | incomplete => simp [next_of_incomplete h hd] at hn
  | rejected e => simp [next_of_rejected h hd] at hn
  | frame f' rest =>
    rw [next_of_frame h hd, Except.ok.injEq, Option.some.injEq] at hn
    exact ⟨rest, by rw [hn]⟩

end Decoder
end RequestFeed
