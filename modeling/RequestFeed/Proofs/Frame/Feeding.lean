import RequestFeed.Proofs.Frame.Reading
/-!
# Feeding decoders

A decoder may be fed its bytes in any pieces, empty ones too, and be asked for frames at any time in
between: too early, too late or several times. What it has answered is compared here with decoding
all bytes at once.

*Invariant.* `DecoderRun.Stands`: the frames handed out, and then those in the backlog, are the
frames in all bytes, whatever bytes are still to come; and when a decoder has failed, it did so
after the last frame and says nothing else any more.

*Results.*
* `DecoderRun.Stands.step`: feeding and asking keep the invariant.
* `Frame.extent_le`: what decides about a frame is no longer than the payload limit lets it be.
* `DecoderRun.answers_whole`: the answers of every run.
-/

namespace RequestFeed

open FrameReader (Answer framesOf)

/-- Why decoding has stopped, if it was for an error. -/
def Frame.Ending.error? : Frame.Ending → Option FrameError
  | .incomplete => none
  | .rejected e => some e

/-- Nothing decides about a frame that is longer than the payload limit lets it be. -/
theorem Frame.extent_le (max : Nat) (buffer : Bytes) : extent max buffer ≤ headerSize + max := by
  unfold extent
  split
  · exact Nat.le_add_right _ _
  next front rest _ =>
    split
    · exact Nat.le_add_right _ _
    next h hd =>
      refine Nat.add_le_add_left ?_ _
      unfold Header.decode at hd
      split at hd
      next =>
        split at hd
        · simp at hd
        · obtain ⟨rfl, -, -, -, hmax⟩ := Header.check_eq_ok_iff.mp hd
          exact hmax
      next => simp at hd

/-- What can be done with a decoder. -/
inductive DecoderCall where
  | feed (bytes : Bytes)
  /-- The next frame is asked for. -/
  | next
  deriving DecidableEq, Repr

/-- A decoder, all bytes that it was fed, and all that it has answered. -/
structure DecoderRun where
  decoder : Decoder
  fed : Bytes := []
  answers : List Answer := []

namespace DecoderRun

/-- A new decoder. -/
def start (max : Nat) : DecoderRun := { decoder := { maxPayload := max } }

def step (t : DecoderRun) : DecoderCall → DecoderRun
  | .feed bs => { t with decoder := t.decoder.feed bs, fed := t.fed ++ bs }
  | .next => { t with decoder := t.decoder.next.2, answers := t.answers ++ [t.decoder.next.1] }

/-- Any calls, in order. -/
def run (t : DecoderRun) (calls : List DecoderCall) : DecoderRun := calls.foldl step t

/-- The first error among some answers. -/
def firstError? (answers : List Answer) : Option FrameError :=
  answers.findSome? fun
    | .error e => some e
    | .ok _ => none

/-- The next call finds a frame. -/
def HasFrame (t : DecoderRun) : Prop := ∃ f, t.decoder.next.1 = .ok (some f)

section

variable {answers more : List Answer}

theorem framesOf_append : framesOf (answers ++ more) = framesOf answers ++ framesOf more :=
  List.filterMap_append

theorem firstError?_append :
    firstError? (answers ++ more) = (firstError? answers).or (firstError? more) := by
  rw [firstError?, List.findSome?_append]
  rfl

theorem firstError?_eq_none_iff : firstError? answers = none ↔ ∀ a ∈ answers, a.isOk = true := by
  rw [firstError?, List.findSome?_eq_none_iff]
  refine forall₂_congr fun a _ => ?_
  cases a <;> simp [Except.isOk, Except.toBool]

/-- No frame is among answers that all are errors. -/
theorem framesOf_replicate_error (n : Nat) (e : FrameError) :
    framesOf (List.replicate n (.error e)) = [] := by
  simp [framesOf]

end

/-- What a decoder has answered so far, and what it still holds, make up what decoding says of all
bytes that it was fed. -/
inductive Stands (max : Nat) (t : DecoderRun) : Prop where
  /-- All bytes that have not become frames are there, and more of them may come. -/
  | reading (backlog : ByteQueue) (decoder : t.decoder = ⟨max, .reading backlog⟩)
    (fine : firstError? t.answers = none)
    (rest : ∀ more, Frame.decodeAll max (t.fed ++ more) =
      (framesOf t.answers ++ (Frame.decodeAll max (backlog.bytes ++ more)).1,
        (Frame.decodeAll max (backlog.bytes ++ more)).2))
  /-- After all frames an error was told, and since then nothing else. -/
  | failed (before : List Answer) (e : FrameError) (n : Nat)
    (decoder : t.decoder = ⟨max, .desynchronized⟩)
    (answers : t.answers = before ++ .error e :: List.replicate n (.error .desynchronized))
    (fine : firstError? before = none)
    (frames : (Frame.decodeAll max t.fed).1 = framesOf before)
    (ending : (Frame.decodeAll max t.fed).2.1 = .rejected e)

variable {max : Nat} {t : DecoderRun}

theorem stands_start (max : Nat) : (start max).Stands max :=
  .reading .empty rfl rfl fun _ => rfl

theorem Stands.feed (h : t.Stands max) (bs : Bytes) : (t.step (.feed bs)).Stands max := by
  cases h with
  | reading backlog hdecoder hfine hrest =>
    refine .reading (backlog.push bs) ?_ hfine fun more => ?_
    · rw [step, hdecoder]
      rfl
    · rw [step, List.append_assoc, hrest, ByteQueue.bytes_push, List.append_assoc]
  | failed before e n hdecoder hanswers hfine hframes hending =>
    obtain ⟨hsame, hagain⟩ := Frame.decodeAll_append_of_rejected hending bs
    refine .failed before e n ?_ hanswers hfine (hsame.trans hframes) hagain
    rw [step, hdecoder]
    rfl

theorem Stands.next (h : t.Stands max) : (t.step .next).Stands max := by
  cases h with
  | reading backlog hdecoder hfine hrest =>
    have hstate : t.decoder.state = .reading backlog := by rw [hdecoder]
    have hmax : t.decoder.maxPayload = max := by rw [hdecoder]
    cases hd : Frame.decode max backlog.bytes with
    | incomplete =>
      have hnext := Decoder.next_of_incomplete hstate (by rw [hmax, hd])
      refine .reading backlog ?_ ?_ fun more => ?_
      · rw [step, hnext, hdecoder]
      · rw [step, hnext, firstError?_append, hfine]
        rfl
      · rw [step, hnext, framesOf_append, hrest]
        simp [framesOf]
    | rejected e =>
      have hnext := Decoder.next_of_rejected hstate (by rw [hmax, hd])
      have hall := hrest []
      rw [List.append_nil, List.append_nil, Frame.decodeAll_of_rejected hd] at hall
      refine .failed t.answers e 0 ?_ ?_ hfine ?_ ?_
      · rw [step, hnext, hdecoder]
      · rw [step, hnext]
        rfl
      · rw [step, hall]
        exact List.append_nil _
      · rw [step, hall]
    | frame f rest =>
      have hnext := Decoder.next_of_frame hstate (by rw [hmax, hd])
      refine .reading (.ofBytes rest) ?_ ?_ fun more => ?_
      · rw [step, hnext, hdecoder]
      · rw [step, hnext, firstError?_append, hfine]
        rfl
      · -- the frame is at the front of the backlog, whatever comes after it
        have hfront : Frame.decode max (backlog.bytes ++ more) = .frame f (rest ++ more) := by
          rw [Frame.decode_append_of_ne_incomplete (by simp [hd]), hd]
          rfl
        rw [step, hnext, framesOf_append, hrest, Frame.decodeAll_of_frame hfront]
        simp [framesOf]
  | failed before e n hdecoder hanswers hfine hframes hending =>
    have hnext : t.decoder.next = (.error .desynchronized, t.decoder) := by
      rw [hdecoder]
      rfl
    refine .failed before e (n + 1) ?_ ?_ hfine hframes hending
    · rw [step, hnext, hdecoder]
    · rw [step, hnext, hanswers, List.append_assoc, List.cons_append, List.replicate_succ']

theorem Stands.step (h : t.Stands max) (c : DecoderCall) : (t.step c).Stands max := by
  cases c with
  | feed bs => exact h.feed bs
  | next => exact h.next

theorem Stands.run (h : t.Stands max) (calls : List DecoderCall) : (t.run calls).Stands max := by
  induction calls generalizing t with
  | nil => exact h
  | cons c calls ih => exact ih (h.step c)

/-- A decoder that is asked often enough has no frame left. -/
theorem exists_not_hasFrame (t : DecoderRun) :
    ∃ n, ¬ (t.run (List.replicate n .next)).HasFrame := by
  induction hn : t.decoder.buffered using Nat.strongRecOn generalizing t with
  | ind n ih =>
    by_cases hframe : t.HasFrame
    · obtain ⟨f, hf⟩ := hframe
      have hlt : (t.step .next).decoder.buffered < n := hn ▸ Decoder.buffered_lt_of_next hf
      obtain ⟨m, hm⟩ := ih _ hlt (t.step .next) rfl
      exact ⟨m + 1, hm⟩
    · exact ⟨0, hframe⟩

/-- What a decoder has answered is what decoding says of all its bytes, as far as it was asked. -/
structure Whole (max : Nat) (t : DecoderRun) : Prop where
  /-- The frames handed out are the first ones in all bytes. -/
  frames : framesOf t.answers <+: (Frame.decodeAll max t.fed).1
  /-- The first error is the one that decoding all bytes ends with. It is told after all frames, and
  from then on the only answer is that the decoder is desynchronized. -/
  error : ∀ e, firstError? t.answers = some e →
    (Frame.decodeAll max t.fed).2.1 = .rejected e ∧ ∃ before n,
      t.answers = before ++ .error e :: List.replicate n (.error .desynchronized) ∧
        framesOf before = (Frame.decodeAll max t.fed).1 ∧ ∀ a ∈ before, a.isOk = true
  /-- After an error bytes are ignored, none are kept, and there is no other answer. -/
  final : firstError? t.answers ≠ none →
    t.decoder.buffered = 0 ∧ (∀ bs, t.decoder.feed bs = t.decoder) ∧
      t.decoder.next = (.error .desynchronized, t.decoder)
  /-- After a call that finds no frame all frames have been handed out, and if decoding all bytes
  ends with an error, it has been told. -/
  asked : ¬ t.HasFrame →
    framesOf (t.step .next).answers = (Frame.decodeAll max t.fed).1 ∧
      firstError? (t.step .next).answers = (Frame.decodeAll max t.fed).2.1.error?
  /-- Asking again and again comes to such a call. -/
  ends : ∃ n, ¬ (t.run (List.replicate n .next)).HasFrame
  /-- Where no frame is found, less is kept than the longest frame has. -/
  buffered : t.decoder.next.1 = .ok none → t.decoder.next.2.buffered < Frame.headerSize + max

theorem Stands.frames (h : t.Stands max) :
    framesOf t.answers <+: (Frame.decodeAll max t.fed).1 := by
  cases h with
  | reading _ _ _ hrest =>
    have hall := congrArg Prod.fst (hrest [])
    rw [List.append_nil] at hall
    rw [hall]
    exact List.prefix_append _ _
  | failed _ _ _ _ hanswers _ hframes _ =>
    have hlast : framesOf t.answers = (Frame.decodeAll max t.fed).1 := by
      rw [hframes, hanswers, framesOf_append, FrameReader.framesOf_cons, framesOf_replicate_error]
      exact List.append_nil _
    exact hlast ▸ List.prefix_rfl

theorem Stands.error (h : t.Stands max) {e : FrameError} (he : firstError? t.answers = some e) :
    (Frame.decodeAll max t.fed).2.1 = .rejected e ∧ ∃ before n,
      t.answers = before ++ .error e :: List.replicate n (.error .desynchronized) ∧
        framesOf before = (Frame.decodeAll max t.fed).1 ∧ ∀ a ∈ before, a.isOk = true := by
  cases h with
  | reading _ _ hfine _ =>
    rw [hfine] at he
    cases he
  | failed _ _ _ _ hanswers hfine hframes hending =>
    rw [hanswers, firstError?_append, hfine, Option.none_or] at he
    cases Option.some.inj he
    exact ⟨hending, _, _, hanswers, hframes.symm, firstError?_eq_none_iff.mp hfine⟩

theorem Stands.final (h : t.Stands max) (he : firstError? t.answers ≠ none) :
    t.decoder.buffered = 0 ∧ (∀ bs, t.decoder.feed bs = t.decoder) ∧
      t.decoder.next = (.error .desynchronized, t.decoder) := by
  cases h with
  | reading _ _ hfine _ => exact absurd hfine he
  | failed _ _ _ hdecoder _ _ _ _ =>
    rw [hdecoder]
    exact ⟨rfl, fun _ => rfl, rfl⟩

/-- A call that finds no frame leaves nothing to hand out. -/
theorem Stands.asked (h : t.Stands max) (hframe : ¬ t.HasFrame) :
    framesOf (t.step .next).answers = (Frame.decodeAll max t.fed).1 ∧
      firstError? (t.step .next).answers = (Frame.decodeAll max t.fed).2.1.error? := by
  cases h with
  | reading backlog hdecoder hfine hrest =>
    have hstate : t.decoder.state = .reading backlog := by rw [hdecoder]
    have hmax : t.decoder.maxPayload = max := by rw [hdecoder]
    have hall := hrest []
    rw [List.append_nil, List.append_nil] at hall
    cases hd : Frame.decode max backlog.bytes with
    | incomplete =>
      rw [DecoderRun.step, Decoder.next_of_incomplete hstate (by rw [hmax, hd]), framesOf_append,
        firstError?_append, hfine, hall, Frame.decodeAll_of_incomplete hd]
      exact ⟨rfl, rfl⟩
    | rejected e =>
      rw [DecoderRun.step, Decoder.next_of_rejected hstate (by rw [hmax, hd]), framesOf_append,
        firstError?_append, hfine, hall, Frame.decodeAll_of_rejected hd]
      exact ⟨rfl, rfl⟩
    | frame f rest =>
      refine absurd ⟨f, ?_⟩ hframe
      rw [Decoder.next_of_frame hstate (by rw [hmax, hd])]
  | failed before e n hdecoder hanswers hfine hframes hending =>
    have hnext : t.decoder.next = (.error .desynchronized, t.decoder) := by
      rw [hdecoder]
      rfl
    rw [DecoderRun.step, hnext, hanswers, hframes, hending]
    constructor
    · rw [framesOf_append, framesOf_append, FrameReader.framesOf_cons, framesOf_replicate_error]
      simp [framesOf]
    · rw [firstError?_append, firstError?_append, hfine]
      rfl

theorem Stands.buffered (h : t.Stands max) (hnone : t.decoder.next.1 = .ok none) :
    t.decoder.next.2.buffered < Frame.headerSize + max := by
  cases h with
  | failed _ _ _ hdecoder =>
    rw [hdecoder] at hnone
    cases hnone
  | reading backlog hdecoder _ _ =>
    have hstate : t.decoder.state = .reading backlog := by rw [hdecoder]
    have hfound := Decoder.decode_of_next_eq_none hstate hnone
    rw [Decoder.next_of_incomplete hstate hfound]
    rw [hdecoder] at hfound ⊢
    have hlt := Frame.decode_eq_incomplete_iff.mp hfound
    rw [ByteQueue.length_bytes] at hlt
    exact Nat.lt_of_lt_of_le hlt (Frame.extent_le max backlog.bytes)

/--
However bytes are cut and whenever frames are asked for: a decoder hands out, in order, the frames
that decoding finds in all bytes, and tells the error that this ends with, if any, after the last of
them. It says nothing else, and does not fall behind when it is asked.
-/
theorem answers_whole (max : Nat) (calls : List DecoderCall) :
    ((start max).run calls).Whole max := by
  have h : ((start max).run calls).Stands max := (stands_start max).run calls
  constructor
  · exact h.frames
  · exact fun e he => h.error he
  · exact h.final
  · exact h.asked
  · exact exists_not_hasFrame _
  · exact h.buffered

/-- Two frames and bytes that are no frame, cut inside a header and inside a payload; frames are
asked for too early, and again after the error. -/
def impatient : List DecoderCall :=
  let wire := (Frame.ofData 1 [0x61, 0x62] false).bytes ++ (Frame.ofPing []).bytes ++
    List.replicate 12 0
  [.next, .feed (wire.take 5), .feed [], .next, .feed ((wire.drop 5).take 8), .next,
    .feed (wire.drop 13), .next, .next, .next, .next, .feed (Frame.ofPing []).bytes, .next]

theorem impatient_whole :
    ((start 16).run impatient).answers =
        [.ok none, .ok none, .ok none, .ok (some (.ofData 1 [0x61, 0x62] false)),
          .ok (some (.ofPing [])), .error .invalidMagic, .error .desynchronized,
          .error .desynchronized] ∧
      (Frame.decodeAll 16 ((start 16).run impatient).fed).2.1 = .rejected .invalidMagic ∧
      ((start 16).run impatient).decoder.buffered = 0 := by
  have hwhole := answers_whole 16 impatient
  have hanswers : ((start 16).run impatient).answers =
      [.ok none, .ok none, .ok none, .ok (some (.ofData 1 [0x61, 0x62] false)),
        .ok (some (.ofPing [])), .error .invalidMagic, .error .desynchronized,
        .error .desynchronized] := by rfl
  have hfirst : firstError? ((start 16).run impatient).answers = some .invalidMagic := by
    rw [hanswers]
    rfl
  exact ⟨hanswers, (hwhole.error _ hfirst).1, (hwhole.final (by simp [hfirst])).1⟩

end DecoderRun
end RequestFeed
