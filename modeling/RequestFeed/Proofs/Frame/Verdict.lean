import RequestFeed.Proofs.Frame.Decoding
import RequestFeed.Proofs.Frame.RoundTrip
/-!
# Verdicts on frames

The front of a buffer is a frame, or no frame, or too short to tell. The first two stand whatever
bytes come later, and they come as early as they can: the header decides whether there is an error,
before any byte of the payload is there, and the last byte of the payload makes the frame.

*Specification.* `Frame.IsFront`: bytes that a valid frame starts with. `Frame.announced`: the
length of the payload that is to follow. `ByteQueue.HeaderDecides`: what a header says of all that
begins with it.

*Results.*
* `Frame.isFront_iff`: the headers that pass are those of valid frames.
* `Frame.decode_eq_rejected_iff` and `Frame.extent_of_not_rejected`: the header decides about
  errors, and else how many bytes are waited for.
* `ByteQueue.nextFrame_push`: what has been found stays when more bytes come in.
* `ByteQueue.verdict_conclusive`: all of this for the queues that frames are taken from.
-/

namespace RequestFeed

theorem Bytes.cut?_of_le {n : Nat} {bs : Bytes} (h : n ≤ bs.length) :
    cut? n bs = some (bs.take n, bs.drop n) := by
  rw [cut?_eq_some_iff]
  exact ⟨(List.take_append_drop n bs).symm, List.length_take_of_le h⟩

namespace Frame

variable {max : Nat} {front buffer : Bytes}

/-- The length of a payload, as the last four of the twelve bytes in front of it announce it. -/
def announced (buffer : Bytes) : Nat := Bytes.ofLittle ((buffer.drop 8).take 4)

/-- A frame that is valid when payloads may have up to `max` bytes starts with these bytes. -/
def IsFront (max : Nat) (front : Bytes) : Prop := ∃ f : Frame, f.IsValid max ∧ front <+: f.bytes

theorem announced_take (buffer : Bytes) :
    announced (buffer.take headerSize) = announced buffer := by
  simp only [announced, headerSize, List.drop_take, List.take_take]
  rfl

theorem announced_append (h : headerSize ≤ buffer.length) (more : Bytes) :
    announced (buffer ++ more) = announced buffer := by
  rw [← announced_take, List.take_append_of_le_length h, announced_take]

/-! ### Headers -/

namespace Header

theorem announced_bytes {h : Header} (hl : h.length ≤ maxEncodable) :
    announced h.bytes = h.length := by
  have hdrop : h.bytes.drop 8 = Bytes.little 4 h.length := by
    refine List.drop_left' ?_
    simp [magic]
  rw [announced, hdrop, List.take_of_length_le (by simp), Bytes.ofLittle_little]
  refine Nat.mod_eq_of_lt ?_
  simp only [maxEncodable, Bytes.capacity] at hl ⊢
  omega

/-- Twelve bytes pass as a header exactly when they are the wire form of one that passes its
check. -/
theorem decode_eq_ok_iff {h : Header} (hlength : front.length = headerSize) :
    decode max front = .ok h ↔ front = h.bytes ∧ check max h = .ok h ∧ h.length ≤ maxEncodable := by
  constructor
  · exact bytes_of_decode hlength
  · rintro ⟨rfl, hcheck, hl⟩
    rw [decode_bytes hl, hcheck]

/-- The length is checked last: a payload is too large when nothing else is wrong. -/
theorem check_eq_tooLarge_iff {h : Header} {size limit : Nat} :
    check max h = .error (.payloadTooLarge size limit) ↔
      limit = max ∧ max < size ∧ ∃ h', check size h = .ok h' ∧ h'.length = size := by
  constructor
  · intro hc
    unfold check at hc
    split at hc
    · simp at hc
    next hflags =>
      split at hc
      · simp at hc
      next hstream =>
        split at hc
        · simp at hc
        next hcode =>
          split at hc
          next hmax =>
            simp only [Except.error.injEq, FrameError.payloadTooLarge.injEq] at hc
            obtain ⟨rfl, rfl⟩ := hc
            refine ⟨rfl, hmax, h, ?_, rfl⟩
            rw [check, if_neg hflags, if_neg hstream, if_neg hcode, if_neg (Nat.lt_irrefl _)]
          · simp at hc
  · rintro ⟨rfl, hmax, h', hcheck, rfl⟩
    obtain ⟨rfl, hflags, hstream, hcode, -⟩ := check_eq_ok_iff.mp hcheck
    rw [check, if_neg (not_not_intro hflags), if_neg (not_not_intro hstream),
      if_neg fun hc => hc.2 (hcode hc.1), if_pos hmax]

theorem decode_eq_tooLarge_iff {size limit : Nat} :
    decode max front = .error (.payloadTooLarge size limit) ↔
      limit = max ∧ max < size ∧ ∃ h, decode size front = .ok h ∧ h.length = size := by
  unfold decode
  split
  · split
    · simp
    · exact check_eq_tooLarge_iff
  · simp

/-- A header that passes has the length that its last bytes announce. -/
theorem length_of_decode {h : Header} (hlength : front.length = headerSize)
    (hd : decode max front = .ok h) : h.length = announced front := by
  obtain ⟨rfl, -, hl⟩ := bytes_of_decode hlength hd
  exact (announced_bytes hl).symm

end Header

theorem take_headerSize_bytes (f : Frame) : f.bytes.take headerSize = f.header.bytes := by
  rw [bytes_eq]
  exact List.take_left' (Header.length_bytes _)

/-- The headers that pass are those of valid frames. -/
theorem isFront_iff (hlength : front.length = headerSize) :
    IsFront max front ↔ ∃ h, Header.decode max front = .ok h := by
  constructor
  · rintro ⟨f, hvalid, hfront⟩
    obtain ⟨hcheck, hl⟩ := isValid_iff.mp hvalid
    have hsame : front = f.header.bytes := by
      rw [List.prefix_iff_eq_take.mp hfront, hlength, take_headerSize_bytes]
    exact ⟨f.header, (Header.decode_eq_ok_iff hlength).mpr ⟨hsame, hcheck, hl⟩⟩
  · rintro ⟨h, hd⟩
    obtain ⟨rfl, hcheck, hl⟩ := (Header.decode_eq_ok_iff hlength).mp hd
    -- any payload will do, as long as it has the announced length
    let f : Frame := ⟨h.kind, h.flags, h.stream, List.replicate h.length 0⟩
    have hheader : f.header = h := by simp [f, header]
    refine ⟨f, isValid_iff.mpr ⟨by rw [hheader, hcheck], by simpa [f] using hl⟩, ?_⟩
    rw [bytes_eq, hheader]
    exact List.prefix_append _ _

/-- A payload is too large when a limit as large as itself would let its frame be valid. -/
theorem Header.tooLarge_iff_isFront {size limit : Nat} (hlength : front.length = headerSize) :
    Header.decode max front = .error (.payloadTooLarge size limit) ↔
      limit = max ∧ max < size ∧ size = announced front ∧ IsFront size front := by
  rw [decode_eq_tooLarge_iff, isFront_iff hlength]
  constructor
  · rintro ⟨hlimit, hmax, h, hd, rfl⟩
    exact ⟨hlimit, hmax, length_of_decode hlength hd, h, hd⟩
  · rintro ⟨hlimit, hmax, hsize, h, hd⟩
    exact ⟨hlimit, hmax, h, hd, hsize ▸ length_of_decode hlength hd⟩

/-! ### Buffers -/

/-- The header alone decides about errors. -/
theorem decode_eq_rejected_iff {e : FrameError} (h : headerSize ≤ buffer.length) :
    decode max buffer = .rejected e ↔
      Header.decode max (buffer.take headerSize) = .error e := by
  simp only [decode, Bytes.cut?_of_le h]
  cases hh : Header.decode max (buffer.take headerSize) with
  | error e' => simp
  | ok header =>
    dsimp only
    split <;> simp

/-- Where there is no error, the header and the payload that it announces are waited for. -/
theorem extent_of_not_rejected (h : headerSize ≤ buffer.length)
    (hd : ∀ e, decode max buffer ≠ .rejected e) :
    extent max buffer = headerSize + announced buffer := by
  cases hh : Header.decode max (buffer.take headerSize) with
  | error e => exact absurd ((decode_eq_rejected_iff h).mpr hh) (hd e)
  | ok header =>
    rw [← announced_take, ← Header.length_of_decode (List.length_take_of_le h) hh]
    simp only [extent, Bytes.cut?_of_le h, hh]

/-- A frame that is found has the payload that was announced. -/
theorem announced_of_decode {f : Frame} {rest : Bytes} (hd : decode max buffer = .frame f rest) :
    announced buffer = f.payload.length := by
  obtain ⟨hvalid, rfl⟩ := decode_eq_frame_iff.mp hd
  have hlength : headerSize ≤ f.bytes.length := by
    rw [length_bytes]
    exact Nat.le_add_right _ _
  rw [announced_append hlength, ← announced_take, take_headerSize_bytes]
  exact Header.announced_bytes hvalid.encodable

namespace Decoded

variable {d : Decoded}

theorem answer_eq_error_iff {e : FrameError} : d.answer = .error e ↔ d = .rejected e := by
  cases d <;> simp [answer]

theorem answer_eq_none_iff : d.answer = .ok none ↔ d = .incomplete := by
  cases d <;> simp [answer]

theorem answer_extend (more : Bytes) : (d.extend more).answer = d.answer := by
  cases d <;> rfl

theorem left_extend (more : Bytes) :
    (d.extend more).left (buffer ++ more) = d.left buffer ++ more := by
  cases d <;> rfl

end Decoded

end Frame

namespace ByteQueue

open RequestFeed.Frame (headerSize announced IsFront)

variable {max : Nat} {q : ByteQueue}

/-- What has been found stays when more bytes come in, and they are left behind it. -/
theorem nextFrame_push (h : (q.nextFrame max).1 ≠ .ok none) (more : Bytes) :
    (q.push more).nextFrame max = ((q.nextFrame max).1, (q.nextFrame max).2.push more) := by
  rw [nextFrame_fst, Ne, Frame.Decoded.answer_eq_none_iff] at h
  have hgrown := Frame.decode_append_of_ne_incomplete h more
  refine Prod.ext ?_ (ext ?_)
  · rw [nextFrame_fst, nextFrame_fst, bytes_push, hgrown, Frame.Decoded.answer_extend]
  · rw [bytes_nextFrame, bytes_push, bytes_push, bytes_nextFrame, hgrown,
      Frame.Decoded.left_extend]

/-- The header alone decides about errors. -/
theorem nextFrame_eq_error_iff {e : FrameError} (h : headerSize ≤ q.size) :
    (q.nextFrame max).1 = .error e ↔
      Frame.Header.decode max (q.bytes.take headerSize) = .error e := by
  rw [nextFrame_fst, Frame.Decoded.answer_eq_error_iff]
  exact Frame.decode_eq_rejected_iff (by rwa [length_bytes])

/-- Where there is no error yet, there is none when more bytes come in. -/
theorem nextFrame_push_ne_error (h : headerSize ≤ q.size) (hnone : (q.nextFrame max).1 = .ok none)
    (more : Bytes) (e : FrameError) : ((q.push more).nextFrame max).1 ≠ .error e := by
  have hgrown : headerSize ≤ (q.push more).size := by
    rw [size_push]
    exact Nat.le_add_right_of_le h
  rw [Ne, nextFrame_eq_error_iff hgrown, bytes_push,
    List.take_append_of_le_length (by rwa [length_bytes]), ← nextFrame_eq_error_iff h, hnone]
  exact nofun

/-- What is waited for is the payload that the header announces. -/
theorem extent_push (h : headerSize ≤ q.size) (hnone : (q.nextFrame max).1 = .ok none)
    (more : Bytes) :
    Frame.extent max (q.push more).bytes = headerSize + announced q.bytes := by
  rw [nextFrame_fst, Frame.Decoded.answer_eq_none_iff] at hnone
  rw [← length_bytes] at h
  rw [bytes_push, Frame.extent_append h]
  exact Frame.extent_of_not_rejected h (by simp [hnone])

/-- What the header in front of a queue says of every queue that begins with it. -/
structure HeaderDecides (max : Nat) (q : ByteQueue) : Prop where
  /-- Whether there is an error, and which, depends on the header alone. -/
  error_iff : ∀ other : ByteQueue, headerSize ≤ other.size →
    other.bytes.take headerSize = q.bytes.take headerSize → ∀ e,
      (other.nextFrame max).1 = .error e ↔ (q.nextFrame max).1 = .error e
  /-- There is an error exactly when no valid frame starts with the header, even if no byte of the
  payload has come. -/
  bad_iff : (∃ e, (q.nextFrame max).1 = .error e) ↔ ¬ IsFront max (q.bytes.take headerSize)
  /-- The payload is called too large exactly when nothing but the limit keeps a valid frame from
  starting with the header. -/
  tooLarge_iff : ∀ size limit, (q.nextFrame max).1 = .error (.payloadTooLarge size limit) ↔
    limit = max ∧ max < size ∧ size = announced q.bytes ∧ IsFront size (q.bytes.take headerSize)
  /-- As long as the announced payload is not complete, no frame is found. -/
  waits : (q.nextFrame max).1 = .ok none → ∀ more,
    (q.push more).size < headerSize + announced q.bytes →
      (q.push more).nextFrame max = (.ok none, q.push more)
  /-- As soon as it is complete, the frame is found that has it. -/
  complete : (q.nextFrame max).1 = .ok none → ∀ more,
    headerSize + announced q.bytes ≤ (q.push more).size →
      ∃ f left, (q.push more).nextFrame max = (.ok (some f), left) ∧
        f.payload.length = announced q.bytes ∧ (q.push more).bytes = f.bytes ++ left.bytes

theorem nextFrame_of_short (h : headerSize ≤ q.size) (hnone : (q.nextFrame max).1 = .ok none)
    {more : Bytes} (hshort : (q.push more).size < headerSize + announced q.bytes) :
    (q.push more).nextFrame max = (.ok none, q.push more) := by
  have hd : Frame.decode max (q.push more).bytes = .incomplete := by
    rw [Frame.decode_eq_incomplete_iff, extent_push h hnone, length_bytes]
    exact hshort
  rw [nextFrame_eq, hd]
  exact Prod.ext rfl (ofBytes_bytes _)

theorem nextFrame_of_complete (h : headerSize ≤ q.size) (hnone : (q.nextFrame max).1 = .ok none)
    {more : Bytes} (hcomplete : headerSize + announced q.bytes ≤ (q.push more).size) :
    ∃ f left, (q.push more).nextFrame max = (.ok (some f), left) ∧
      f.payload.length = announced q.bytes ∧ (q.push more).bytes = f.bytes ++ left.bytes := by
  cases hfound : Frame.decode max (q.push more).bytes with
  | incomplete =>
    rw [Frame.decode_eq_incomplete_iff, extent_push h hnone, length_bytes] at hfound
    omega
  | rejected e =>
    refine absurd ?_ (nextFrame_push_ne_error h hnone more e)
    rw [nextFrame_fst, hfound]
    rfl
  | frame f rest =>
    have hbytes := Frame.decode_eq_frame_iff.mp hfound
    refine ⟨f, ofBytes rest, nextFrame_eq_frame_iff.mpr hbytes, ?_, hbytes.2⟩
    rw [← Frame.announced_of_decode hfound, bytes_push]
    exact Frame.announced_append (by rwa [length_bytes]) more

/-- A header decides as soon as its twelve bytes are there. -/
theorem headerDecides (h : headerSize ≤ q.size) : q.HeaderDecides max := by
  have hlength : (q.bytes.take headerSize).length = headerSize :=
    List.length_take_of_le (by rwa [length_bytes])
  constructor
  case error_iff =>
    intro other hother hsame e
    rw [nextFrame_eq_error_iff hother, nextFrame_eq_error_iff h, hsame]
  case bad_iff =>
    simp only [nextFrame_eq_error_iff h, Frame.isFront_iff hlength]
    cases Frame.Header.decode max (q.bytes.take headerSize) <;> simp
  case tooLarge_iff =>
    intro size limit
    rw [nextFrame_eq_error_iff h, Frame.Header.tooLarge_iff_isFront hlength, Frame.announced_take]
  case waits => exact fun hnone _ => nextFrame_of_short h hnone
  case complete => exact fun hnone _ => nextFrame_of_complete h hnone

/--
The verdict on the front of a queue is conclusive. An error stays the same error, and a frame stays
the same frame with what comes in left behind it. Once the header is there, it decides about errors,
however much of the payload has come; a queue without an error gives its frame as soon as the
announced payload is complete, and not before.
-/
theorem verdict_conclusive (max : Nat) (q : ByteQueue) :
    (∀ e left, q.nextFrame max = (.error e, left) → ∀ more,
      (q.push more).nextFrame max = (.error e, q.push more)) ∧
    (∀ f left, q.nextFrame max = (.ok (some f), left) → ∀ more,
      (q.push more).nextFrame max = (.ok (some f), left.push more)) ∧
    (headerSize ≤ q.size → q.HeaderDecides max) := by
  refine ⟨?_, ?_, headerDecides⟩
  · intro e left h more
    obtain rfl := left_of_nextFrame h (by simp)
    rw [nextFrame_push (by simp [h]), h]
  · intro f left h more
    rw [nextFrame_push (by simp [h]), h]

/-- A header that announces three bytes, and the first of them. -/
def partPayload : ByteQueue := ofBytes [0x4d, 0x58, 2, 1, 5, 0, 0, 0, 3, 0, 0, 0, 0x61]

/-- A header that announces seventeen bytes, and none of them. -/
def overlong : ByteQueue := ofBytes [0x4d, 0x58, 2, 0, 5, 0, 0, 0, 17, 0, 0, 0]

/-- With a limit of sixteen bytes the one frame is found with its last byte, and the other is
refused before its first. -/
theorem partPayload_conclusive :
    headerSize ≤ partPayload.size ∧ (partPayload.nextFrame 16).1 = .ok none ∧
      (partPayload.push [0x62]).nextFrame 16 = (.ok none, partPayload.push [0x62]) ∧
      (∃ f left, (partPayload.push [0x62, 0x63, 0x4d]).nextFrame 16 = (.ok (some f), left) ∧
        f.payload.length = 3 ∧
        (partPayload.push [0x62, 0x63, 0x4d]).bytes = f.bytes ++ left.bytes) ∧
      overlong.nextFrame 16 = (.error (.payloadTooLarge 17 16), overlong) ∧
      ∀ more, (overlong.push more).nextFrame 16 =
        (.error (.payloadTooLarge 17 16), overlong.push more) := by
  have hsize : headerSize ≤ partPayload.size := by decide
  have hnone : (partPayload.nextFrame 16).1 = .ok none := rfl
  have hlarge : overlong.nextFrame 16 = (.error (.payloadTooLarge 17 16), overlong) := rfl
  have hdecides := (verdict_conclusive 16 partPayload).2.2 hsize
  refine ⟨hsize, hnone, hdecides.waits hnone [0x62] (by decide), ?_, hlarge, ?_⟩
  · exact hdecides.complete hnone [0x62, 0x63, 0x4d] (by decide)
  · exact (verdict_conclusive 16 overlong).1 _ _ hlarge

end ByteQueue
end RequestFeed
