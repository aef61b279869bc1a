import RequestFeed.Frame.Basic
/-!
# The wire form of frames

*Wire form.* Twelve bytes in front, and the payload:

* the magic bytes `M` and `X`;
* the kind and the flags, one byte each;
* the stream number and the length of the payload, four bytes each, little-endian.

*Decoding* works on the front of a buffer. The header is checked as soon as its twelve bytes are
there, before the payload has arrived, so a verdict on a header never changes when more bytes
come in.
-/

namespace RequestFeed
namespace Frame

/-- The bytes that every frame starts with. -/
def magic : Bytes := [0x4d, 0x58]

/-- The longest payload whose length four bytes can hold. -/
def maxEncodable : Nat := 4294967295

def bytes (f : Frame) : Bytes :=
  magic ++ [f.kind.code, f.flags] ++ Bytes.little 4 f.stream.toNat ++
    Bytes.little 4 f.payload.length ++ f.payload

/-- The header takes up its twelve bytes, whatever the frame. -/
theorem length_bytes (f : Frame) : f.bytes.length = f.wireSize := by
  simp [bytes, wireSize, magic, headerSize]
  omega

/-- The wire form of a frame, if its payload is not too long to have one. -/
def encode (f : Frame) : Except FrameError Bytes :=
  if maxEncodable < f.payload.length then
    .error (.payloadTooLarge f.payload.length maxEncodable)
  else .ok f.bytes

/-- The header of a frame, as the twelve bytes in front announce it. -/
structure Header where
  kind : FrameKind
  flags : UInt8
  stream : StreamId
  length : Nat
  deriving DecidableEq, Repr

namespace Header

/-- Checks what a header announces. -/
def check (max : Nat) (h : Header) : Except FrameError Header :=
  if h.flags &&& ~~~h.kind.allowedFlags ≠ 0 then .error (.invalidFlags h.kind h.flags)
  else if h.kind.isConnectionLevel ≠ h.stream.isConnection then
    .error (.reservedStream h.kind h.stream)
  else if h.kind.carriesCode ∧ h.length ≠ 4 then .error (.malformedPayload h.kind h.length)
  else if max < h.length then .error (.payloadTooLarge h.length max)
  else .ok h

/-- Reads and checks the twelve bytes in front of a payload. -/
def decode (max : Nat) : Bytes → Except FrameError Header
  | 0x4d :: 0x58 :: code :: flags :: numbers =>
    match FrameKind.ofCode? code with
    | none => .error (.unknownKind code)
    | some kind =>
      check max
        { kind, flags
          stream := UInt32.ofNat (Bytes.ofLittle (numbers.take 4))
          length := Bytes.ofLittle (numbers.drop 4) }
  | _ => .error .invalidMagic

end Header

/-- What the front of a buffer holds. -/
inductive Decoded where
  /-- Not yet a whole frame. -/
  | incomplete
  /-- A frame, and what follows it. -/
  | frame (frame : Frame) (rest : Bytes)
  /-- Something that is no frame. -/
  | rejected (error : FrameError)
  deriving DecidableEq, Repr

/-- Decodes the frame at the front of a buffer. -/
def decode (max : Nat) (buffer : Bytes) : Decoded :=
  match Bytes.cut? headerSize buffer with
  | none => .incomplete
  | some (front, rest) =>
    match Header.decode max front with
    | .error e => .rejected e
    | .ok h =>
      match Bytes.cut? h.length rest with
      | none => .incomplete
      | some (payload, rest) => .frame ⟨h.kind, h.flags, h.stream, payload⟩ rest

/-- A decoded frame and what follows it make up the buffer. -/
theorem length_eq_of_decode_eq_frame {max : Nat} {buffer rest : Bytes} {f : Frame}
    (h : decode max buffer = .frame f rest) : buffer.length = f.wireSize + rest.length := by
  unfold decode at h
  split at h
  · simp at h
  next front tail hc =>
    rw [Bytes.cut?_eq_some_iff] at hc
    split at h
    · simp at h
    · split at h
      · simp at h
      next payload left hp =>
        rw [Bytes.cut?_eq_some_iff] at hp
        simp only [Decoded.frame.injEq] at h
        obtain ⟨rfl, rfl⟩ := h
        rw [hc.1, hp.1]
        simp [hc.2, hp.2, wireSize]
        omega

/-- A decoded frame has left a shorter buffer. -/
theorem length_lt_of_decode_eq_frame {max : Nat} {buffer rest : Bytes} {f : Frame}
    (h : decode max buffer = .frame f rest) : rest.length < buffer.length := by
  rw [length_eq_of_decode_eq_frame h]
  simp only [wireSize, headerSize]
  omega

/-- How many bytes decide about the frame at the front of a buffer. -/
def extent (max : Nat) (buffer : Bytes) : Nat :=
  match Bytes.cut? headerSize buffer with
  | none => headerSize
  | some (front, _) =>
    match Header.decode max front with
    | .error _ => headerSize
    | .ok h => headerSize + h.length

/-- Nothing is decided before the header is there. -/
theorem headerSize_le_extent (max : Nat) (buffer : Bytes) :
    headerSize ≤ extent max buffer := by
  unfold extent
  split
  · exact Nat.le_refl _
  · split
    · exact Nat.le_refl _
    · exact Nat.le_add_right _ _

/-- The header tells how many bytes decide. -/
theorem extent_append {max : Nat} {buffer : Bytes} (h : headerSize ≤ buffer.length)
    (more : Bytes) : extent max (buffer ++ more) = extent max buffer := by
  cases hc : Bytes.cut? headerSize buffer with
  | none =>
    rw [Bytes.cut?_eq_none_iff] at hc
    omega
  | some cut =>
    simp only [extent, hc, Bytes.cut?_append hc more]

/-- There is a verdict as soon as the bytes that decide are there, and not before. -/
theorem decode_eq_incomplete_iff {max : Nat} {buffer : Bytes} :
    decode max buffer = .incomplete ↔ buffer.length < extent max buffer := by
  cases hc : Bytes.cut? headerSize buffer with
  | none =>
    simp only [decode, extent, hc, true_iff]
    exact Bytes.cut?_eq_none_iff.mp hc
  | some cut =>
    obtain ⟨front, rest⟩ := cut
    have hb := Bytes.cut?_eq_some_iff.mp hc
    have hl : buffer.length = headerSize + rest.length := by rw [hb.1]; simp [hb.2]
    simp only [decode, extent, hc]
    cases hh : Header.decode max front with
    | error e => simp [hl]
    | ok header =>
      dsimp only
      cases hp : Bytes.cut? header.length rest with
      | none =>
        rw [Bytes.cut?_eq_none_iff] at hp
        simp only [true_iff]
        omega
      | some cut =>
        obtain ⟨payload, left⟩ := cut
        have hr := Bytes.cut?_eq_some_iff.mp hp
        have : rest.length = header.length + left.length := by rw [hr.1]; simp [hr.2]
        simp only [reduceCtorEq, false_iff]
        omega

/-- What is found, as an answer. -/
def Decoded.answer : Decoded → Except FrameError (Option Frame)
  | .incomplete => .ok none
  | .frame f _ => .ok (some f)
  | .rejected e => .error e

/-- The bytes of a buffer that a found frame does not take up. -/
def Decoded.left (buffer : Bytes) : Decoded → Bytes
  | .frame _ rest => rest
  | _ => buffer

/-- What is found in a buffer that has grown by some bytes. -/
def Decoded.extend (more : Bytes) : Decoded → Decoded
  | .frame f rest => .frame f (rest ++ more)
  | found => found

/-- A verdict stands when more bytes come in. -/
theorem decode_append {max : Nat} {buffer : Bytes} (h : extent max buffer ≤ buffer.length)
    (more : Bytes) : decode max (buffer ++ more) = (decode max buffer).extend more := by
  cases hc : Bytes.cut? headerSize buffer with
  | none =>
    have := Bytes.cut?_eq_none_iff.mp hc
    have := headerSize_le_extent max buffer
    omega
  | some cut =>
    obtain ⟨front, rest⟩ := cut
    have hb := Bytes.cut?_eq_some_iff.mp hc
    have hl : buffer.length = headerSize + rest.length := by rw [hb.1]; simp [hb.2]
    simp only [extent, hc] at h
    simp only [decode, hc, Bytes.cut?_append hc more]
    cases hh : Header.decode max front with
    | error e => rfl
    | ok header =>
      simp only [hh] at h
      cases hp : Bytes.cut? header.length rest with
      | none =>
        rw [Bytes.cut?_eq_none_iff] at hp
        omega
      | some payload => simp only [hp, Bytes.cut?_append hp more, Decoded.extend]

/-- How a run of decoding ends. -/
inductive Ending where
  /-- What is left is not yet a frame. -/
  | incomplete
  /-- What is left is no frame. -/
  | rejected (error : FrameError)
  deriving DecidableEq, Repr

/-- Decodes frame after frame: the frames, how it ended, and what is left. -/
def decodeAll (max : Nat) (buffer : Bytes) : List Frame × Ending × Bytes :=
  match _h : decode max buffer with
  | .incomplete => ([], .incomplete, buffer)
  | .rejected e => ([], .rejected e, buffer)
  | .frame f rest =>
    let (frames, ending, left) := decodeAll max rest
    (f :: frames, ending, left)
termination_by buffer.length
decreasing_by exact length_lt_of_decode_eq_frame _h

end Frame
end RequestFeed
