import RequestFeed.Frame.Reader
import RequestFeed.Proofs.Frame.Decoding
import RequestFeed.Proofs.Frame.RoundTrip
import RequestFeed.Proofs.Read.Script
/-!
# Frame readers and decoders

A frame reader waits for its input and a decoder is fed, but both hand out the same frames. Here a
frame reader is called again and again over a reader that plays a script, and what it answers is
compared with what a decoder answers that has been fed all pieces at once.

*Results.*
* `Decoder.collect_reading`: a decoder hands out the frames that decoding finds in its backlog.
* `FrameReader.next?_eq` and `FrameReader.call`: what one call answers, and what it takes from the
  script.
* `FrameReader.account`: no byte and no error of the reader is lost.
* `FrameReader.agrees_with_decoder`: the answers to all calls.
-/

namespace RequestFeed

/-! ### Decoders -/

/-- What a decoder has answered until it asked for more or failed. -/
structure Decoder.Collected where
  frames : List Frame
  failure : Option FrameError
  decoder : Decoder
  deriving DecidableEq, Repr

namespace Decoder

/-- All frames that are there, up to the first error. -/
def collect (d : Decoder) : Collected :=
  match _h : d.next with
  | (.ok none, left) => ⟨[], none, left⟩
  | (.error e, left) => ⟨[], some e, left⟩
  | (.ok (some f), left) =>
    let rest := collect left
    { rest with frames := f :: rest.frames }
termination_by d.buffered
decreasing_by
  have hlt := buffered_lt_of_next (d := d) (f := f) (by rw [_h])
  rwa [_h] at hlt

/-- What decoding has found, as a decoder tells it. -/
def Collected.ofDecoded (max : Nat) : List Frame × Frame.Ending × Bytes → Collected
  | (frames, .incomplete, left) => ⟨frames, none, ⟨max, .reading (.ofBytes left)⟩⟩
  | (frames, .rejected e, _) => ⟨frames, some e, ⟨max, .desynchronized⟩⟩

theorem Collected.ofDecoded_cons (max : Nat) (f : Frame)
    (decoded : List Frame × Frame.Ending × Bytes) :
    ofDecoded max (f :: decoded.1, decoded.2) =
      { ofDecoded max decoded with frames := f :: (ofDecoded max decoded).frames } := by
  obtain ⟨frames, ending, left⟩ := decoded
  cases ending <;> rfl

theorem collect_reading (max : Nat) (buffer : Bytes) :
    collect ⟨max, .reading (.ofBytes buffer)⟩ =
      Collected.ofDecoded max (Frame.decodeAll max buffer) := by
  fun_induction Frame.decodeAll max buffer with
  | case1 buffer hd =>
    rw [collect, next_of_incomplete rfl (by simpa using hd)]
    rfl
  | case2 buffer e hd =>
    rw [collect, next_of_rejected rfl (by simpa using hd)]
    rfl
  | case3 buffer f rest hd frames ending left hrest ih =>
    rw [collect, next_of_frame rfl (by simpa using hd)]
    simp only [ih, hrest]
    exact (Collected.ofDecoded_cons max f (frames, ending, left)).symm

/-- A decoder that is fed at once hands out what decoding finds in its bytes. -/
theorem collect_feed (max : Nat) (bs : Bytes) :
    (feed bs { maxPayload := max }).collect = Collected.ofDecoded max (Frame.decodeAll max bs) := by
  have hpushed : ByteQueue.empty.push bs = .ofBytes bs := by
    apply ByteQueue.ext
    simp
  rw [← collect_reading, ← hpushed]
  rfl

/-- What frame readers say at the end, when a decoder has been left like this. -/
def Collected.ending (c : Collected) : Except FrameError (Option Frame) :=
  match c.failure with
  | some e => .error e
  | none => if c.decoder.buffered = 0 then .ok none else .error .connectionClosed

end Decoder

/-! ### Answers of frame readers -/

/-- Decoding finds no failures of readers. -/
theorem Frame.rejected_ne_io {max : Nat} {buffer : Bytes} {e : FrameError}
    (h : decode max buffer = .rejected e) (cause : IoError) : e ≠ .io cause := by
  rintro rfl
  unfold decode at h
  split at h
  · simp at h
  next front rest hcut =>
    split at h
    next e hheader =>
      simp only [Decoded.rejected.injEq] at h
      subst h
      unfold Header.decode Header.check at hheader
      repeat' split at hheader
      all_goals simp at hheader
    next => split at h <;> simp at h

namespace FrameReader

/-- What a frame reader answers to one call. -/
abbrev Answer := Except FrameError (Option Frame)

/-- The frames among some answers. -/
def framesOf (answers : List Answer) : List Frame :=
  answers.filterMap fun
    | .ok found => found
    | .error _ => none

/-- The failures of the reader among some answers. -/
def failuresOf (answers : List Answer) : List IoError :=
  answers.filterMap fun
    | .error (.io e) => some e
    | _ => none

section

variable {ρ : Type} [Reader ρ]

/-- A frame reader after some calls. -/
def after : Nat → FrameReader ρ → FrameReader ρ
  | 0, s => s
  | n + 1, s => after n s.next?.2

/-- What a frame reader answers to the first calls. -/
def answers : Nat → FrameReader ρ → List Answer
  | 0, _ => []
  | n + 1, s => s.next?.1 :: answers n s.next?.2

variable {s : FrameReader ρ} {script : Reader.Script}

/-- One call, in terms of the bytes of the backlog. -/
theorem next?_eq (s : FrameReader ρ) :
    s.next? =
      match Frame.decode s.maxPayload s.backlog.bytes with
      | .rejected e => (.error e, s)
      | .frame f rest => (.ok (some f), { s with backlog := .ofBytes rest })
      | .incomplete =>
        match (Reader.read chunk s.reader).1 with
        | .ok [] =>
          (if s.backlog.bytes = [] then .ok none else .error .connectionClosed,
            { s with reader := (Reader.read chunk s.reader).2 })
        | .ok (b :: bs) =>
          next? { s with
            reader := (Reader.read chunk s.reader).2
            backlog := s.backlog.push (b :: bs) }
        | .error e =>
          if e.kind = .interrupted then next? { s with reader := (Reader.read chunk s.reader).2 }
          else (.error (.io e), { s with reader := (Reader.read chunk s.reader).2 }) := by
  rw [next?, ByteQueue.nextFrame_eq]
  cases hd : Frame.decode s.maxPayload s.backlog.bytes with
  | rejected e => simp [Frame.Decoded.answer, Frame.Decoded.left]
  | frame f rest => rfl
  | incomplete =>
    have hkept : ByteQueue.ofBytes (Frame.Decoded.left s.backlog.bytes .incomplete) = s.backlog :=
      s.backlog.ofBytes_bytes
    have hempty : s.backlog.size = 0 ↔ s.backlog.bytes = [] := by
      rw [← ByteQueue.length_bytes, List.length_eq_zero_iff]
    simp only [Frame.Decoded.answer, hkept, hempty]
    split
    next hr => rw [hr]
    next b bs hr => rw [hr]
    next e hr =>
      rw [hr]
      by_cases hi : e.kind = .interrupted
      · rw [dif_pos hi]
        exact (if_pos hi).symm
      · rw [dif_neg hi]
        exact (if_neg hi).symm

/-- At the end of the input the reader is asked in vain. -/
theorem next?_of_ended (hplays : Reader.Plays chunk [] s.reader)
    (hd : Frame.decode s.maxPayload s.backlog.bytes = .incomplete) :
    s.next? =
      (if s.backlog.bytes = [] then .ok none else .error .connectionClosed,
        { s with reader := (Reader.read chunk s.reader).2 }) := by
  rw [next?_eq, hd]
  simp only [hplays.read_nil.1]

/-- What a call answers when its bytes have come to `buffer`, and the reader has failed with
`failures`; `rest` is what the reader has still to say, and `left` what is kept. -/
inductive Outcome (max : Nat) (buffer : Bytes) (rest : Reader.Script) :
    List IoError → Answer → Bytes → Prop where
  | frame {f : Frame} {left : Bytes} (found : Frame.decode max buffer = .frame f left) :
    Outcome max buffer rest [] (.ok (some f)) left
  | rejected {e : FrameError} (found : Frame.decode max buffer = .rejected e) :
    Outcome max buffer rest [] (.error e) buffer
  | failed (e : IoError) (found : Frame.decode max buffer = .incomplete) :
    Outcome max buffer rest [e] (.error (.io e)) buffer
  | ended (found : Frame.decode max buffer = .incomplete) (nothing : rest = []) :
    Outcome max buffer rest [] (if buffer = [] then .ok none else .error .connectionClosed) buffer

/-- One call reads some part of the script and leaves the rest of it. -/
structure Called (script : Reader.Script) (s : FrameReader ρ) (reads : Nat) : Prop where
  reader : s.next?.2.reader = Reader.after chunk reads s.reader
  maxPayload : s.next?.2.maxPayload = s.maxPayload
  plays : Reader.Plays chunk (script.drop reads) s.next?.2.reader
  outcome : Outcome s.maxPayload (s.backlog.bytes ++ Reader.Script.bytes (script.take reads))
    (script.drop reads) (Reader.Script.failures (script.take reads)) s.next?.1
    s.next?.2.backlog.bytes

/-- What is there decides about a call: the reader is not asked. -/
theorem called_of_decided (hplays : Reader.Plays chunk script s.reader)
    (hd : Frame.decode s.maxPayload s.backlog.bytes ≠ .incomplete) : Called script s 0 := by
  cases hfound : Frame.decode s.maxPayload s.backlog.bytes with
  | incomplete => exact absurd hfound hd
  | rejected e =>
    have hnext : s.next? = (.error e, s) := by rw [next?_eq, hfound]
    constructor <;> rw [hnext]
    · rfl
    · exact hplays
    · simpa using .rejected hfound
  | frame f rest =>
    have hnext : s.next? = (.ok (some f), { s with backlog := .ofBytes rest }) := by
      rw [next?_eq, hfound]
    constructor <;> rw [hnext]
    · rfl
    · exact hplays
    · simpa using .frame hfound

/-- A call that goes on after a read is a call of what the read has left. -/
theorem Called.succ {answer : Except IoError Bytes} {rest : Reader.Script} {t : FrameReader ρ}
    {reads : Nat} (h : Called rest t reads) (hnext : s.next? = t.next?)
    (hreader : t.reader = (Reader.read chunk s.reader).2) (hmax : t.maxPayload = s.maxPayload)
    (hbacklog : t.backlog.bytes = s.backlog.bytes ++ Reader.Script.bytes [answer])
    (hfailures : Reader.Script.failures [answer] = []) :
    Called (answer :: rest) s (reads + 1) := by
  have houtcome := h.outcome
  rw [hbacklog, hmax, List.append_assoc, ← Reader.Script.bytes_append] at houtcome
  have hnone : Reader.Script.failures ((answer :: rest).take (reads + 1)) =
      Reader.Script.failures (rest.take reads) := by
    rw [List.take_succ_cons, ← List.singleton_append, Reader.Script.failures_append, hfailures]
    rfl
  constructor
  · rw [hnext, h.reader, hreader]
    rfl
  · rw [hnext, h.maxPayload, hmax]
  · rw [hnext]
    exact h.plays
  · rw [hnext, hnone]
    exact houtcome

theorem call (hproper : script.Proper) (hplays : Reader.Plays chunk script s.reader) :
    ∃ reads, Called script s reads := by
  induction script generalizing s with
  | nil =>
    by_cases hd : Frame.decode s.maxPayload s.backlog.bytes = .incomplete
    · refine ⟨1, ?_, ?_, ?_, ?_⟩ <;> rw [next?_of_ended hplays hd]
      · rfl
      · exact hplays.read_nil.2
      · simpa using .ended hd rfl
    · exact ⟨0, called_of_decided hplays hd⟩
  | cons answer rest ih =>
    by_cases hd : Frame.decode s.maxPayload s.backlog.bytes = .incomplete
    · obtain ⟨hread, hrest⟩ := hplays
      have hnext := next?_eq s
      simp only [hd, hread] at hnext
      match answer with
      | .ok [] => exact absurd List.mem_cons_self hproper
      | .ok (b :: bs) =>
        let t : FrameReader ρ :=
          { s with
            reader := (Reader.read chunk s.reader).2
            backlog := s.backlog.push (b :: bs) }
        obtain ⟨reads, hcalled⟩ := ih (s := t) hproper.tail hrest
        refine ⟨reads + 1, hcalled.succ hnext rfl rfl ?_ rfl⟩
        simp [t]
      | .error e =>
        let t : FrameReader ρ := { s with reader := (Reader.read chunk s.reader).2 }
        by_cases hi : e.kind = .interrupted
        · obtain ⟨reads, hcalled⟩ := ih (s := t) hproper.tail hrest
          refine ⟨reads + 1, hcalled.succ (hnext.trans (if_pos hi)) rfl rfl ?_ ?_⟩
          · exact (List.append_nil _).symm
          · exact Reader.Script.failures_interrupted hi []
        · replace hnext : s.next? = (.error (.io e), t) := hnext.trans (if_neg hi)
          have hfailure : Reader.Script.failures ((.error e :: rest).take 1) = [e] :=
            Reader.Script.failures_error hi []
          refine ⟨1, ?_, ?_, ?_, ?_⟩ <;> rw [hnext]
          · rfl
          · exact hrest
          · rw [hfailure]
            simpa [t] using .failed e hd
    · exact ⟨0, called_of_decided hplays hd⟩

/-! ### Runs -/

theorem framesOf_cons (answer : Answer) (others : List Answer) :
    framesOf (answer :: others) = framesOf [answer] ++ framesOf others :=
  List.filterMap_append (l := [answer])

theorem failuresOf_cons (answer : Answer) (others : List Answer) :
    failuresOf (answer :: others) = failuresOf [answer] ++ failuresOf others :=
  List.filterMap_append (l := [answer])

/-- One answer accounts for what one call has taken. -/
theorem Outcome.account {max : Nat} {buffer left : Bytes} {rest : Reader.Script}
    {failures : List IoError} {answer : Answer}
    (h : Outcome max buffer rest failures answer left) :
    failuresOf [answer] = failures ∧ buffer = (framesOf [answer]).flatMap Frame.bytes ++ left := by
  cases h with
  | frame found =>
    refine ⟨rfl, ?_⟩
    simpa [framesOf] using (Frame.decode_eq_frame_iff.mp found).2
  | @rejected e found =>
    refine ⟨?_, rfl⟩
    cases e with
    | io cause => exact absurd rfl (Frame.rejected_ne_io found cause)
    | _ => rfl
  | failed e found => exact ⟨rfl, rfl⟩
  | ended found nothing => split <;> exact ⟨rfl, rfl⟩

/-- What the reader has given is handed out, told or kept. -/
structure Accounted (script : Reader.Script) (s : FrameReader ρ) (n reads : Nat) : Prop where
  reader : (s.after n).reader = Reader.after chunk reads s.reader
  failures : failuresOf (s.answers n) = Reader.Script.failures (script.take reads)
  bytes : s.backlog.bytes ++ Reader.Script.bytes (script.take reads) =
    (framesOf (s.answers n)).flatMap Frame.bytes ++ (s.after n).backlog.bytes

theorem account (hproper : script.Proper) (hplays : Reader.Plays chunk script s.reader) (n : Nat) :
    ∃ reads, Accounted script s n reads := by
  induction n generalizing s script with
  | zero => exact ⟨0, rfl, rfl, by simp [framesOf, answers, after]⟩
  | succ n ih =>
    obtain ⟨first, hcalled⟩ := call hproper hplays
    obtain ⟨others, haccounted⟩ := ih (hproper.drop first) hcalled.plays
    obtain ⟨hfailures, hbytes⟩ := hcalled.outcome.account
    refine ⟨first + others, ?_, ?_, ?_⟩
    · rw [Reader.after_add, ← hcalled.reader]
      exact haccounted.reader
    · rw [answers, failuresOf_cons, hfailures, haccounted.failures, List.take_add,
        Reader.Script.failures_append]
    · rw [answers, framesOf_cons, List.flatMap_append, List.take_add, Reader.Script.bytes_append,
        ← List.append_assoc, hbytes, List.append_assoc, haccounted.bytes, after, List.append_assoc]

/-- Where a frame reader that answers this is left as it is, it answers the same ever after. -/
theorem answers_of_stays {answer : Answer} (h : s.next? = (answer, s)) (n : Nat) :
    s.answers n = List.replicate n answer ∧ s.after n = s := by
  induction n with
  | zero => exact ⟨rfl, rfl⟩
  | succ n ih =>
    rw [answers, after, h, ih.1, ih.2]
    exact ⟨rfl, rfl⟩

/-- The end of the input is told ever after. -/
theorem answers_of_ended (hplays : Reader.Plays chunk [] s.reader)
    (hd : Frame.decode s.maxPayload s.backlog.bytes = .incomplete) (n : Nat) :
    s.answers n =
      List.replicate n (if s.backlog.bytes = [] then .ok none else .error .connectionClosed) := by
  induction n generalizing s with
  | zero => rfl
  | succ n ih =>
    let t : FrameReader ρ := { s with reader := (Reader.read chunk s.reader).2 }
    rw [answers, next?_of_ended hplays hd, ih (s := t) hplays.read_nil.2 hd]
    rfl

/-- What a frame reader over a reader that plays a script answers to all calls, compared with what a
decoder has answered: `body` first, and then always the same. -/
structure Agrees (script : Reader.Script) (s : FrameReader ρ) (c : Decoder.Collected)
    (body : List Answer) : Prop where
  answers : ∀ n, s.answers (body.length + n) = body ++ List.replicate n c.ending
  /-- The same frames are handed out. -/
  frames : framesOf body = c.frames
  /-- Before the end there is nothing but frames and failures of the reader, and interruptions are
  none. -/
  others : ∀ answer ∈ body, (∃ f, answer = .ok (some f)) ∨
    ∃ e : IoError, answer = .error (.io e) ∧ e.kind ≠ .interrupted
  /-- Every failure of the reader is told once, if all of the input can be decoded. -/
  failures : c.failure = none → failuresOf body = script.failures
  /-- What is no frame is told ever after without a read: any reader could be there, and is left as
  it is. -/
  unread : c.failure.isSome → ∀ (n : Nat) (r : ρ),
    next? { s.after (body.length + 1 + n) with reader := r } =
      (c.ending, { s.after (body.length + 1 + n) with reader := r })

variable {c : Decoder.Collected} {body : List Answer}

/-- All calls are answered the same. -/
theorem agrees_nil (hfirst : s.next?.1 = c.ending)
    (hlater : ∀ n, s.next?.2.answers n = List.replicate n c.ending) (hframes : c.frames = [])
    (hfailures : c.failure = none → script.failures = [])
    (hunread : c.failure.isSome → ∀ r : ρ, next? { s.next?.2 with reader := r } =
      (c.ending, { s.next?.2 with reader := r })) : Agrees script s c [] where
  answers n := by
    rw [List.length_nil, Nat.zero_add, List.nil_append]
    cases n with
    | zero => rfl
    | succ n =>
      rw [FrameReader.answers, hfirst, hlater]
      rfl
  frames := hframes.symm
  others := by simp
  failures h := (hfailures h).symm
  unread h n r := by
    have hstays := (answers_of_stays (hunread h s.next?.2.reader) n).2
    rw [List.length_nil, Nat.zero_add, Nat.add_comm, after, hstays]
    exact hunread h r

/-- A call is answered with a frame or a failure of the reader. -/
theorem Agrees.cons {reads : Nat} (hcalled : Called script s reads)
    (h : Agrees (script.drop reads) s.next?.2 c body)
    (hanswer : (∃ f, s.next?.1 = .ok (some f)) ∨
      ∃ e : IoError, s.next?.1 = .error (.io e) ∧ e.kind ≠ .interrupted) :
    Agrees script s { c with frames := framesOf [s.next?.1] ++ c.frames } (s.next?.1 :: body) where
  answers n := by
    rw [List.length_cons, Nat.add_right_comm, FrameReader.answers, h.answers]
    rfl
  frames := by rw [framesOf_cons, h.frames]
  others := by
    intro answer hmem
    rcases List.mem_cons.mp hmem with rfl | hmem
    · exact hanswer
    · exact h.others answer hmem
  failures hnone := by
    rw [failuresOf_cons, hcalled.outcome.account.1, h.failures hnone,
      Reader.Script.failures_take_append_drop]
  unread hsome n r := by
    rw [List.length_cons, Nat.add_right_comm (body.length + 1)]
    exact h.unread hsome n r

/-- The call that finds what is no frame is the last that changes anything. -/
theorem agrees_of_rejected {max : Nat} {buffer : Bytes} {e : FrameError}
    (hanswer : s.next?.1 = .error e)
    (hagain : ∀ r : ρ, next? { s.next?.2 with reader := r } =
      (.error e, { s.next?.2 with reader := r }))
    (hd : Frame.decode max buffer = .rejected e) :
    Agrees script s (.ofDecoded max (Frame.decodeAll max buffer)) [] := by
  rw [Frame.decodeAll_of_rejected hd]
  apply agrees_nil hanswer
  · exact fun n => (answers_of_stays (hagain s.next?.2.reader) n).1
  · rfl
  · exact nofun
  · exact fun _ => hagain

/-- The call that finds the end of the input is answered like all that follow. -/
theorem agrees_of_ended {max : Nat} {buffer : Bytes}
    (hanswer : s.next?.1 = if buffer = [] then .ok none else .error .connectionClosed)
    (hlater : ∀ n, s.next?.2.answers n =
      List.replicate n (if buffer = [] then .ok none else .error .connectionClosed))
    (hd : Frame.decode max buffer = .incomplete) (hnone : script.failures = []) :
    Agrees script s (.ofDecoded max (Frame.decodeAll max buffer)) [] := by
  have hempty : buffer.length = 0 ↔ buffer = [] := List.length_eq_zero_iff
  have hending : (Decoder.Collected.ofDecoded max ([], .incomplete, buffer)).ending =
      if buffer = [] then .ok none else .error .connectionClosed := by
    simp [Decoder.Collected.ofDecoded, Decoder.Collected.ending, Decoder.buffered,
      ← ByteQueue.length_bytes, hempty]
  rw [Frame.decodeAll_of_incomplete hd]
  apply agrees_nil
  · rw [hending, hanswer]
  · rw [hending]
    exact hlater
  · rfl
  · exact fun _ => hnone
  · exact fun hsome => absurd hsome Bool.false_ne_true

/-- A frame reader answers what a decoder would that had been given its backlog and all that is to
come. -/
theorem exists_agrees (hproper : script.Proper) (hplays : Reader.Plays chunk script s.reader) :
    ∃ body, Agrees script s
      (.ofDecoded s.maxPayload (Frame.decodeAll s.maxPayload (s.backlog.bytes ++ script.bytes)))
      body := by
  -- Every call that is no ending takes something from the script or from the bytes.
  induction hsize : script.length + (s.backlog.bytes ++ script.bytes).length
    using Nat.strongRecOn generalizing s script with
  | ind size ih =>
    obtain ⟨reads, hcalled⟩ := call hproper hplays
    have hlater := fun hlt => ih _ hlt (hproper.drop reads) hcalled.plays rfl
    have hdropped : (script.drop reads).length ≤ script.length := by simp
    have hwhole : s.backlog.bytes ++ script.bytes =
        (s.backlog.bytes ++ Reader.Script.bytes (script.take reads)) ++
          Reader.Script.bytes (script.drop reads) := by
      rw [List.append_assoc, Reader.Script.bytes_take_append_drop]
    have houtcome := hcalled.outcome
    rw [hwhole] at hsize ⊢
    rw [hcalled.maxPayload] at hlater
    generalize s.backlog.bytes ++ Reader.Script.bytes (script.take reads) = buffer at *
    generalize hfailures : Reader.Script.failures (script.take reads) = failures at houtcome
    generalize hanswer : s.next?.1 = answer at houtcome
    generalize hleft : s.next?.2.backlog.bytes = left at houtcome hlater
    have hmore : Frame.decode s.maxPayload buffer ≠ .incomplete →
        Frame.decode s.maxPayload (buffer ++ Reader.Script.bytes (script.drop reads)) =
          (Frame.decode s.maxPayload buffer).extend (Reader.Script.bytes (script.drop reads)) :=
      fun h => Frame.decode_append_of_ne_incomplete h _
    cases houtcome with
    | @frame f _ found =>
      rw [found] at hmore
      have hfound := hmore (by simp)
      have hshorter := Frame.length_lt_of_decode_eq_frame hfound
      obtain ⟨body, hagrees⟩ := hlater (by omega)
      have hcons := hagrees.cons hcalled (Or.inl ⟨f, hanswer⟩)
      rw [hanswer] at hcons
      rw [Frame.decodeAll_of_frame hfound, Decoder.Collected.ofDecoded_cons]
      exact ⟨_, hcons⟩
    | @rejected e found =>
      rw [found] at hmore
      have hagain (r : ρ) : next? { s.next?.2 with reader := r } =
          (.error e, { s.next?.2 with reader := r }) := by
        rw [next?_eq, hcalled.maxPayload, hleft, found]
      exact ⟨[], agrees_of_rejected hanswer hagain (hmore (by simp))⟩
    | failed e found =>
      have hplayed := List.length_pos_iff.mpr (Reader.Script.ne_nil_of_failures hfailures)
      rw [List.length_take] at hplayed
      obtain ⟨body, hagrees⟩ := hlater (by rw [List.length_drop]; omega)
      have hkind : e.kind ≠ .interrupted :=
        Reader.Script.kind_of_mem_failures (hfailures ▸ List.mem_cons_self)
      have hcons := hagrees.cons hcalled (Or.inr ⟨e, hanswer, hkind⟩)
      rw [hanswer] at hcons
      exact ⟨_, hcons⟩
    | ended found nothing =>
      have hended (n : Nat) := answers_of_ended (s := s.next?.2) (nothing ▸ hcalled.plays)
        (by rw [hcalled.maxPayload, hleft, found]) n
      have hnone : script.failures = [] := by
        rw [← Reader.Script.failures_take_append_drop reads, hfailures, nothing]
        rfl
      rw [hleft] at hended
      rw [nothing, Reader.Script.bytes_nil, List.append_nil]
      exact ⟨[], agrees_of_ended hanswer hended found hnone⟩

/-- A frame reader answers like a decoder that has been fed all pieces: the same frames, and at the
end the same error, or what tells whether bytes are left over. What the reader has given, its
failures too, has been handed out, told or kept at any time. -/
theorem agrees_with_decoder (max : Nat) {r : ρ} (hproper : script.Proper)
    (hplays : Reader.Plays chunk script r) :
    (∃ body, Agrees script { reader := r, maxPayload := max }
      (Decoder.feed script.bytes { maxPayload := max }).collect body) ∧
    ∀ n, ∃ reads, Accounted script { reader := r, maxPayload := max } n reads := by
  constructor
  · rw [Decoder.collect_feed]
    exact exists_agrees (s := { reader := r, maxPayload := max }) hproper hplays
  · exact account hproper hplays

end

/-- A frame in two pieces, with an interruption between them and a failure behind them, and then the
start of another frame. -/
def torn : Reader.Script :=
  [.ok [0x4d, 0x58, 2, 1, 1], .error (.ofKind .interrupted), .ok [0, 0, 0, 1, 0, 0, 0, 0x61, 0x4d],
    .error (.ofKind .wouldBlock), .ok [0x58]]

theorem torn_agrees :
    ∃ body, framesOf body = [.ofData 1 [0x61] true] ∧
      failuresOf body = [.ofKind .wouldBlock] ∧
      ∀ n, answers (body.length + n)
          ({ reader := .ofScript torn, maxPayload := 4 } : FrameReader ScriptedReader) =
        body ++ List.replicate n (.error .connectionClosed) := by
  have hproper : torn.Proper := by simp [Reader.Script.Proper, torn]
  have hplays : Reader.Plays chunk torn (ScriptedReader.ofScript torn) :=
    ScriptedReader.plays (by simp [torn, chunk])
  obtain ⟨⟨body, hagrees⟩, -⟩ := agrees_with_decoder 4 hproper hplays
  have hframe : Frame.decode 4 torn.bytes = .frame (.ofData 1 [0x61] true) [0x4d, 0x58] := by decide
  have hrest : Frame.decode 4 [0x4d, 0x58] = .incomplete := by decide
  rw [Decoder.collect_feed, Frame.decodeAll_of_frame hframe,
    Frame.decodeAll_of_incomplete hrest] at hagrees
  exact ⟨body, hagrees.frames, hagrees.failures rfl, hagrees.answers⟩

end FrameReader
end RequestFeed
