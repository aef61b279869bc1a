import RequestFeed.Frame.Queue
/-!
# Writing and reading frames

The wire form of frames and the decoding of it undo each other. Nothing but the wire form of a
valid frame decodes as a frame, and such a frame is found whatever bytes follow it.

*Results.*
* `Frame.Header.decode_bytes` and `Frame.Header.bytes_of_decode`: the twelve bytes in front of a
  payload, both ways.
* `Frame.decode_eq_frame_iff`: a frame is decoded exactly when it is valid and the buffer starts
  with its wire form.
* `ByteQueue.frames_roundTrip`: frames that are written one after the other are read back in
  order, and a frame that is read takes its own wire form out of the buffer.
-/

namespace RequestFeed

theorem Bytes.little_ofLittle_of_length {width : Nat} {bs : Bytes} (h : bs.length = width) :
    little width (ofLittle bs) = bs := by
  subst h
  exact little_ofLittle bs

namespace FrameKind

theorem ofCode?_eq_some_iff {code : UInt8} {k : FrameKind} :
    ofCode? code = some k ↔ code = k.code := by
  constructor
  · intro h
    unfold ofCode? at h
    split at h <;> simp only [Option.some.injEq, reduceCtorEq] at h <;> subst h <;> rfl
  · rintro rfl
    exact ofCode?_code k

theorem isConnectionLevel_eq_true_iff {k : FrameKind} :
    k.isConnectionLevel = true ↔ k = .ping ∨ k = .goAway := by
  cases k <;> simp [isConnectionLevel]

theorem carriesCode_eq_true_iff {k : FrameKind} :
    k.carriesCode = true ↔ k = .reset ∨ k = .goAway := by
  cases k <;> simp [carriesCode]

end FrameKind

theorem StreamId.isConnection_eq_true_iff {id : StreamId} :
    id.isConnection = true ↔ id = connection := by
  simp [isConnection]

namespace Frame

/-- A frame that can be written, and that is read when payloads may have up to `max` bytes. -/
structure IsValid (max : Nat) (f : Frame) : Prop where
  /-- No flag is set but those that the kind allows. -/
  flags : f.flags &&& ~~~f.kind.allowedFlags = 0
  stream : f.stream = StreamId.connection ↔ f.kind = .ping ∨ f.kind = .goAway
  code : f.kind = .reset ∨ f.kind = .goAway → f.payload.length = 4
  payload : f.payload.length ≤ max
  encodable : f.payload.length ≤ maxEncodable

instance (max : Nat) (f : Frame) : Decidable (f.IsValid max) :=
  decidable_of_iff
    (f.flags &&& ~~~f.kind.allowedFlags = 0 ∧
      (f.stream = StreamId.connection ↔ f.kind = .ping ∨ f.kind = .goAway) ∧
      (f.kind = .reset ∨ f.kind = .goAway → f.payload.length = 4) ∧
      f.payload.length ≤ max ∧ f.payload.length ≤ maxEncodable)
    ⟨fun ⟨hflags, hstream, hcode, hmax, hlength⟩ => ⟨hflags, hstream, hcode, hmax, hlength⟩,
      fun h => ⟨h.flags, h.stream, h.code, h.payload, h.encodable⟩⟩

/-! ### Headers -/

/-- What the wire form announces in front of the payload. -/
def header (f : Frame) : Header := ⟨f.kind, f.flags, f.stream, f.payload.length⟩

namespace Header

/-- The twelve bytes in front of a payload. -/
def bytes (h : Header) : Bytes :=
  magic ++ [h.kind.code, h.flags] ++ Bytes.little 4 h.stream.toNat ++ Bytes.little 4 h.length

theorem length_bytes (h : Header) : h.bytes.length = headerSize := by
  simp [bytes, magic, headerSize]

theorem check_eq_ok_iff {max : Nat} {h h' : Header} :
    check max h = .ok h' ↔
      h' = h ∧ h.flags &&& ~~~h.kind.allowedFlags = 0 ∧
        h.kind.isConnectionLevel = h.stream.isConnection ∧
        (h.kind.carriesCode = true → h.length = 4) ∧ h.length ≤ max := by
  unfold check
  constructor
  · intro hc
    split at hc
    · simp at hc
    next hflags =>
      split at hc
      · simp at hc
      next hstream =>
        split at hc
        · simp at hc
        next hcode =>
          split at hc
          · simp at hc
          next hmax =>
            simp only [Except.ok.injEq] at hc
            refine ⟨hc.symm, Decidable.not_not.mp hflags, Decidable.not_not.mp hstream, ?_, ?_⟩
            · intro hcarries
              exact Decidable.not_not.mp fun hne => hcode ⟨hcarries, hne⟩
            · exact Nat.not_lt.mp hmax
  · rintro ⟨rfl, hflags, hstream, hcode, hmax⟩
    rw [if_neg (not_not_intro hflags), if_neg (not_not_intro hstream),
      if_neg fun hc => hc.2 (hcode hc.1), if_neg (Nat.not_lt.mpr hmax)]

/-- A header that is written is read as it was, and then checked. -/
theorem decode_bytes {h : Header} (hl : h.length ≤ maxEncodable) (max : Nat) :
    decode max h.bytes = check max h := by
  have hstream : UInt32.ofNat (Bytes.ofLittle (Bytes.little 4 h.stream.toNat)) = h.stream := by
    rw [Bytes.ofLittle_little]
    simp [Bytes.capacity, Nat.mod_eq_of_lt h.stream.toNat_lt]
  have hlength : Bytes.ofLittle (Bytes.little 4 h.length) = h.length := by
    rw [Bytes.ofLittle_little]
    refine Nat.mod_eq_of_lt ?_
    simp only [Bytes.capacity, maxEncodable] at hl ⊢
    omega
  have htake : (Bytes.little 4 h.stream.toNat ++ Bytes.little 4 h.length).take 4 =
      Bytes.little 4 h.stream.toNat := List.take_left' (Bytes.length_little _ _)
  have hdrop : (Bytes.little 4 h.stream.toNat ++ Bytes.little 4 h.length).drop 4 =
      Bytes.little 4 h.length := List.drop_left' (Bytes.length_little _ _)
  simp only [bytes, magic, List.cons_append, List.nil_append, decode, FrameKind.ofCode?_code,
    htake, hdrop, hstream, hlength]

/-- Twelve bytes that are read as a header are those that are written for it. -/
theorem bytes_of_decode {max : Nat} {front : Bytes} {h : Header}
    (hlength : front.length = headerSize) (hd : decode max front = .ok h) :
    front = h.bytes ∧ check max h = .ok h ∧ h.length ≤ maxEncodable := by
  unfold decode at hd
  split at hd
  next code flags numbers =>
    split at hd
    · simp at hd
    next kind hkind =>
      rw [FrameKind.ofCode?_eq_some_iff] at hkind
      have hnumbers : numbers.length = 8 := by simpa [headerSize] using hlength
      have htake : (numbers.take 4).length = 4 := by simp [hnumbers]
      have hdrop : (numbers.drop 4).length = 4 := by simp [hnumbers]
      have hsame := (check_eq_ok_iff.mp hd).1
      rw [← hsame] at hd
      refine ⟨?_, hd, ?_⟩
      · have hstream := Bytes.ofLittle_lt (numbers.take 4)
        rw [htake] at hstream
        have hword : (UInt32.ofNat (Bytes.ofLittle (numbers.take 4))).toNat =
            Bytes.ofLittle (numbers.take 4) := by
          rw [UInt32.toNat_ofNat']
          exact Nat.mod_eq_of_lt hstream
        rw [hsame]
        simp only [bytes, magic, hkind, hword, Bytes.little_ofLittle_of_length htake,
          Bytes.little_ofLittle_of_length hdrop, List.cons_append, List.nil_append,
          List.take_append_drop]
      · have hbound := Bytes.ofLittle_lt (numbers.drop 4)
        rw [hdrop] at hbound
        rw [hsame]
        simp only [maxEncodable, Bytes.capacity] at hbound ⊢
        omega
  · simp at hd

end Header

theorem bytes_eq (f : Frame) : f.bytes = f.header.bytes ++ f.payload := by
  simp [bytes, Header.bytes, header]

/-- The header of a valid frame passes its check, and no other header does. -/
theorem isValid_iff {max : Nat} {f : Frame} :
    f.IsValid max ↔ Header.check max f.header = .ok f.header ∧ f.payload.length ≤ maxEncodable := by
  have hstream : (f.stream = StreamId.connection ↔ f.kind = .ping ∨ f.kind = .goAway) ↔
      f.kind.isConnectionLevel = f.stream.isConnection := by
    rw [Bool.eq_iff_iff, FrameKind.isConnectionLevel_eq_true_iff,
      StreamId.isConnection_eq_true_iff]
    exact Iff.comm
  rw [Header.check_eq_ok_iff, FrameKind.carriesCode_eq_true_iff]
  constructor
  · intro h
    exact ⟨⟨rfl, h.flags, hstream.mp h.stream, h.code, h.payload⟩, h.encodable⟩
  · rintro ⟨⟨-, hflags, hconnection, hcode, hmax⟩, hlength⟩
    exact
      { flags := hflags, stream := hstream.mpr hconnection, code := hcode, payload := hmax
        encodable := hlength }

/-! ### Frames -/

/-- A frame is decoded exactly when it is valid and the buffer starts with its wire form. -/
theorem decode_eq_frame_iff {max : Nat} {buffer rest : Bytes} {f : Frame} :
    decode max buffer = .frame f rest ↔ f.IsValid max ∧ buffer = f.bytes ++ rest := by
  rw [isValid_iff]
  constructor
  · intro h
    unfold decode at h
    split at h
    · simp at h
    next front tail hcut =>
      obtain ⟨rfl, hfront⟩ := Bytes.cut?_eq_some_iff.mp hcut
      split at h
      · simp at h
      next header hheader =>
        obtain ⟨rfl, hcheck, hlength⟩ := Header.bytes_of_decode hfront hheader
        split at h
        · simp at h
        next payload left hpayload =>
          obtain ⟨rfl, hl⟩ := Bytes.cut?_eq_some_iff.mp hpayload
          simp only [Decoded.frame.injEq] at h
          obtain ⟨rfl, rfl⟩ := h
          have hsame :
              Frame.header ⟨header.kind, header.flags, header.stream, payload⟩ = header := by
            simp [Frame.header, hl]
          refine ⟨⟨?_, ?_⟩, ?_⟩
          · rw [hsame]
            exact hcheck
          · exact Nat.le_trans (Nat.le_of_eq hl) hlength
          · rw [bytes_eq, hsame, List.append_assoc]
  · rintro ⟨⟨hcheck, hlength⟩, rfl⟩
    have hfront : Bytes.cut? headerSize (f.bytes ++ rest) =
        some (f.header.bytes, f.payload ++ rest) := by
      rw [Bytes.cut?_eq_some_iff, bytes_eq, List.append_assoc]
      exact ⟨rfl, Header.length_bytes _⟩
    have hheader : Header.decode max f.header.bytes = .ok f.header := by
      rw [Header.decode_bytes hlength, hcheck]
    have hpayload : Bytes.cut? f.header.length (f.payload ++ rest) = some (f.payload, rest) :=
      Bytes.cut?_eq_some_iff.mpr ⟨rfl, rfl⟩
    simp only [decode, hfront, hheader, hpayload]
    rfl

theorem encode_eq_ok {f : Frame} (h : f.payload.length ≤ maxEncodable) :
    f.encode = .ok f.bytes := by
  rw [encode, if_neg (Nat.not_lt.mpr h)]

/-- The wire forms of frames, one after the other. -/
def encodeAll : List Frame → Except FrameError Bytes
  | [] => .ok []
  | f :: rest => do
    let first ← f.encode
    let others ← encodeAll rest
    return first ++ others

theorem encodeAll_eq_ok {frames : List Frame} (h : ∀ f ∈ frames, f.payload.length ≤ maxEncodable) :
    encodeAll frames = .ok (frames.flatMap bytes) := by
  induction frames with
  | nil => rfl
  | cons f rest ih =>
    have hrest : encodeAll rest = .ok (rest.flatMap bytes) :=
      ih fun g hg => h g (List.mem_cons_of_mem f hg)
    simp only [encodeAll, encode_eq_ok (h f List.mem_cons_self), hrest]
    rfl

end Frame

namespace ByteQueue

/-- Takes out the next frame as often as asked: what was found each time, and what is left. -/
def takeFrames (max : Nat) : Nat → ByteQueue → List (Except FrameError (Option Frame)) × ByteQueue
  | 0, q => ([], q)
  | n + 1, q =>
    let (found, q) := q.nextFrame max
    let (others, q) := takeFrames max n q
    (found :: others, q)

variable {max : Nat} {q left : ByteQueue}

theorem nextFrame_eq_frame_iff {f : Frame} :
    q.nextFrame max = (.ok (some f), left) ↔ f.IsValid max ∧ q.bytes = f.bytes ++ left.bytes := by
  rw [← Frame.decode_eq_frame_iff, Prod.ext_iff, nextFrame_fst]
  constructor
  · rintro ⟨hfound, rfl⟩
    rw [bytes_nextFrame]
    cases hd : Frame.decode max q.bytes with
    | incomplete => simp [hd, Frame.Decoded.answer] at hfound
    | rejected e => simp [hd, Frame.Decoded.answer] at hfound
    | frame g rest =>
      simp only [hd, Frame.Decoded.answer, Except.ok.injEq, Option.some.injEq] at hfound
      rw [hfound]
      rfl
  · intro hd
    rw [hd]
    refine ⟨rfl, ext ?_⟩
    rw [bytes_nextFrame, hd]
    rfl

/-- Where no frame is found, nothing is taken out. -/
theorem left_of_nextFrame {found : Except FrameError (Option Frame)}
    (h : q.nextFrame max = (found, left)) (hf : ∀ f, found ≠ .ok (some f)) : left = q := by
  have hfound := q.nextFrame_fst max
  have hleft := q.bytes_nextFrame max
  rw [h] at hfound hleft
  refine ext (hleft.trans ?_)
  cases hd : Frame.decode max q.bytes with
  | incomplete => rfl
  | rejected e => rfl
  | frame f rest =>
    rw [hd] at hfound
    exact absurd hfound (hf f)

/-- Valid frames that are written one after the other are read back in order, and what follows them
stays. -/
theorem takeFrames_flatMap_bytes {frames : List Frame} (h : ∀ f ∈ frames, f.IsValid max)
    (rest : Bytes) :
    takeFrames max frames.length (ofBytes (frames.flatMap Frame.bytes ++ rest)) =
      (frames.map fun f => .ok (some f), ofBytes rest) := by
  induction frames with
  | nil => rfl
  | cons f others ih =>
    have hnext : (ofBytes ((f :: others).flatMap Frame.bytes ++ rest)).nextFrame max =
        (.ok (some f), ofBytes (others.flatMap Frame.bytes ++ rest)) := by
      rw [nextFrame_eq_frame_iff]
      exact ⟨h f List.mem_cons_self, by simp⟩
    simp only [List.length_cons, takeFrames, hnext, List.map_cons,
      ih fun g hg => h g (List.mem_cons_of_mem f hg)]

/--
Writing and reading frames undo each other. Valid frames have wire forms, and are read back from
them in order with what follows left over. A frame that is read is valid, and what it took out of
the buffer is its wire form. A buffer in which no frame is found stays as it was.
-/
theorem frames_roundTrip (max : Nat) :
    (∀ frames : List Frame, (∀ f ∈ frames, f.IsValid max) → ∃ wire,
      Frame.encodeAll frames = .ok wire ∧
        ∀ rest : Bytes, takeFrames max frames.length (ofBytes (wire ++ rest)) =
          (frames.map fun f => .ok (some f), ofBytes rest)) ∧
    (∀ (q left : ByteQueue) (f : Frame), q.nextFrame max = (.ok (some f), left) →
      f.IsValid max ∧ ∃ wire, f.encode = .ok wire ∧ q.bytes = wire ++ left.bytes) ∧
    (∀ q left : ByteQueue, q.nextFrame max = (.ok none, left) → left = q) ∧
    ∀ (q left : ByteQueue) (e : FrameError), q.nextFrame max = (.error e, left) → left = q := by
  refine ⟨?_, ?_, ?_, ?_⟩
  · intro frames h
    refine ⟨frames.flatMap Frame.bytes, Frame.encodeAll_eq_ok fun f hf => (h f hf).encodable, ?_⟩
    exact takeFrames_flatMap_bytes h
  · intro q left f h
    obtain ⟨hvalid, hbytes⟩ := nextFrame_eq_frame_iff.mp h
    exact ⟨hvalid, f.bytes, Frame.encode_eq_ok hvalid.encodable, hbytes⟩
  · intro q left h
    exact left_of_nextFrame h (by simp)
  · intro q left e h
    exact left_of_nextFrame h (by simp)

/-- A frame of every kind; one payload is empty, and the others are as long as may be. -/
def everyKind : List Frame :=
  [⟨.opening, 0, 1, [0, 0, 0, 0]⟩, .ofData 1 [0x4d, 0x58, 2, 0] true, .ofReset 3 7, .ofPing [],
    .ofGoAway 1]

/-- The frames are read back from their wire form although what follows them is no frame. -/
theorem everyKind_roundTrip :
    (∀ f ∈ everyKind, f.IsValid 4) ∧ ∃ wire, Frame.encodeAll everyKind = .ok wire ∧
      takeFrames 4 5 (ofBytes (wire ++ [0x4d, 0, 0])) =
        (everyKind.map fun f => .ok (some f), ofBytes [0x4d, 0, 0]) := by
  have hvalid : ∀ f ∈ everyKind, f.IsValid 4 := by decide
  obtain ⟨wire, hwire, hread⟩ := (frames_roundTrip 4).1 everyKind hvalid
  exact ⟨hvalid, wire, hwire, hread _⟩

end ByteQueue
end RequestFeed
