import RequestFeed.Feed.Demultiplexer
import RequestFeed.Proofs.Feed.Order
/-!
# Pumping

A demultiplexer takes the bytes of a connection piece by piece. Whatever the pieces, it stands
where the transcript of all bytes taken so far ends, and its feed serves the requests of that
transcript in turn.

*Invariant.* `Demultiplexer.Tells max taken out d`: the demultiplexer has taken `taken` and its
feed has delivered `out`. `Source.Keeps` says that a property of a source, of what it has
delivered, and of the status of its last read is kept by reads of bytes; it is carried along, so
that what was taken can be compared with what the source gave.

*Results.*
* `Demultiplexer.follows_routeAll`: routing what the decoder holds is routing the transcript.
* `Demultiplexer.StandsAfter.routeAll_feed`: the same of bytes that the decoder is fed.
* `Demultiplexer.Traces.pumpUntilReady`: pumping keeps the invariant.
* `Demultiplexer.stopped_pumpUntilReady`: why pumping stops.
-/

namespace RequestFeed

section

variable {σ : Type} [Source σ]

/-- A property of what a source has delivered, of the status of its last read and of the source is
kept when bytes are read. -/
def Source.Keeps (H : Bytes → Status → σ → Prop) : Prop :=
  ∀ (blocking : Blocking) (n : Nat) (delivered : Bytes) (last : Status) (s : σ),
    H delivered last s →
      H (delivered ++ (Source.read ⟨.bytes, blocking, n⟩ s).1.output.bytes)
        (Source.read ⟨.bytes, blocking, n⟩ s).1.status (Source.read ⟨.bytes, blocking, n⟩ s).2

/-- The source gives no bytes together with the end of its input. -/
def Source.EndsBare (σ : Type) [Source σ] : Prop :=
  ∀ (blocking : Blocking) (n : Nat) (s : σ),
    (Source.read ⟨.bytes, blocking, n⟩ s).1.status = .failed .eof →
      (Source.read ⟨.bytes, blocking, n⟩ s).1.output.bytes = []

namespace Input

variable {H : Bytes → Status → σ → Prop} {n : Nat} {blocking : Blocking} {i : Input} {s : σ}

/-- What is taken, and then what is buffered, is what the source has delivered. -/
theorem take_keeps (n : Nat) (blocking : Blocking) (hH : Source.Keeps H) {taken : Bytes}
    (h : H (taken ++ i.buffer) i.last s) :
    H (taken ++ (take n blocking i s).1 ++ (take n blocking i s).2.1.buffer)
      (take n blocking i s).2.1.last (take n blocking i s).2.2 := by
  have hrefill : H (taken ++ (refill n blocking i s).1.buffer) (refill n blocking i s).1.last
      (refill n blocking i s).2 := by
    unfold refill
    split
    next hb =>
      rw [hb, List.append_nil] at h
      exact hH blocking n taken i.last s h
    · exact h
  unfold take
  split
  · simpa using h
  · generalize refill n blocking i s = refilled at hrefill ⊢
    obtain ⟨i', s'⟩ := refilled
    dsimp only at hrefill ⊢
    split
    · simpa using hrefill
    · rw [List.append_assoc, List.take_append_drop]
      exact hrefill

/-- When nothing is taken, nothing was buffered and the source gave nothing. -/
theorem take_eq_nil (hn : n ≠ 0) (h : (take n blocking i s).1 = []) :
    (take n blocking i s).2.1.buffer = [] ∧
      (take n blocking i s).2.1.last = (Source.read ⟨.bytes, blocking, n⟩ s).1.status ∧
      (Source.read ⟨.bytes, blocking, n⟩ s).1.output.bytes = [] := by
  unfold take at h ⊢
  rw [if_neg hn] at h ⊢
  by_cases hb : i.buffer = []
  · simp only [refill, hb, if_true] at h ⊢
    split at h
    next => simp_all
    next hd =>
      simp only [List.take_eq_nil_iff, hn, false_or] at h
      simp [h] at hd
  · exfalso
    simp only [refill, hb, if_false] at h
    split at h
    · exact hb h
    · simp [hn, hb] at h

/-- When something is taken, it was buffered, or the source has just given something. -/
theorem last_take_of_ne_nil (h : (take n blocking i s).1 ≠ []) :
    (take n blocking i s).2.1.last = i.last ∨
      (take n blocking i s).2.1.last = (Source.read ⟨.bytes, blocking, n⟩ s).1.status ∧
        (Source.read ⟨.bytes, blocking, n⟩ s).1.output.bytes ≠ [] := by
  unfold take at h ⊢
  by_cases hn : n = 0
  · simp [hn] at h
  · rw [if_neg hn] at h ⊢
    by_cases hb : i.buffer = []
    · right
      simp only [refill, hb, if_true] at h ⊢
      split at h
      next => simpa using h
      next hd =>
        refine ⟨by simp, ?_⟩
        intro hnil
        simp [hnil] at h
    · left
      simp only [refill, hb, if_false]
      split <;> rfl

end Input

end

namespace Demultiplexer

/-- The demultiplexer has taken these bytes, and its feed has delivered `out`. -/
structure Tells (max : Nat) (taken out : Bytes) (d : Demultiplexer) : Prop where
  chunk : d.chunk ≠ 0
  maxPayload : d.decoder.maxPayload = max
  router : d.router = (Transcript.ofBytes max taken).router
  failed : d.failed = (Transcript.ofBytes max taken).failure.isSome
  /-- What has not yet become a frame is what decoding leaves. -/
  backlog : d.failed = false → ∃ backlog, d.decoder.state = .reading backlog ∧
    backlog.bytes = (Frame.decodeAll max taken).2.2
  feed : d.feed.Serves (Transcript.ofBytes max taken).requests out
  tidy : d.feed.Tidy d.router.highest

theorem tells_create (chunk max : Nat) : (create chunk max).Tells max [] [] := by
  have hdecode : Frame.decodeAll max [] = ([], .incomplete, []) :=
    Frame.decodeAll_of_incomplete rfl
  constructor
  · exact Nat.ne_of_gt (Nat.le_max_right chunk 1)
  · rfl
  · simp [create]
  · simp [create]
  · intro _
    exact ⟨.empty, rfl, by rw [hdecode]; rfl⟩
  · rw [Transcript.ofBytes_nil]
    exact Feed.serves_new
  · exact Feed.tidy_new

/-- Routing leaves a demultiplexer where a transcript ends, and has delivered what it says. -/
structure Follows (t : Transcript) (left : Bytes) (before : Demultiplexer) (after : Routed) :
    Prop where
  chunk : after.demux.chunk = before.chunk
  input : after.demux.input = before.input
  maxPayload : after.demux.decoder.maxPayload = before.decoder.maxPayload
  router : after.demux.router = t.router
  failed : after.demux.failed = t.failure.isSome
  backlog : t.failure = none → ∃ backlog, after.demux.decoder.state = .reading backlog ∧
    backlog.bytes = left
  deliveries : after.deliveries = t.deliveries
  feed : after.demux.feed = (before.feed.deliverAll after.deliveries).1

theorem deliverAll_append (ds es : List Delivery) (f : Feed) :
    (f.deliverAll (ds ++ es)).1 = ((f.deliverAll ds).1.deliverAll es).1 := by
  induction ds generalizing f with
  | nil => rfl
  | cons d ds ih => exact ih _

theorem follows_fail (e : FrameError) (left : Bytes) (d : Demultiplexer) (decoder : Decoder)
    (h : decoder.maxPayload = d.decoder.maxPayload) :
    Follows (Transcript.failing e d.router) left d (fail e { d with decoder }) :=
  { chunk := rfl
    input := rfl
    maxPayload := h
    router := rfl
    failed := rfl
    backlog := fun h => by simp at h
    deliveries := rfl
    feed := rfl }

/-- Routing what the decoder holds is routing the transcript of it, whatever was done before. -/
theorem follows_routeFrom {d : Demultiplexer} {backlog : ByteQueue} (hf : d.failed = false)
    (h : d.decoder.state = .reading backlog) (done : List Delivery) (told : List Notice) :
    ∃ r, routeFrom done told d = r.after done told ∧
      Follows (Transcript.ofBuffer d.decoder.maxPayload d.router backlog.bytes)
        (Frame.decodeAll d.decoder.maxPayload backlog.bytes).2.2 d r := by
  -- the recursion takes one frame off the backlog, as the transcript takes it off the buffer
  fun_induction routeFrom done told d generalizing backlog with
  | case1 done told d hnext =>
    have hd := Decoder.decode_of_next_eq_none h hnext
    rw [Decoder.next_of_incomplete h hd, Transcript.ofBuffer_of_incomplete hd,
      Frame.decodeAll_of_incomplete hd]
    refine ⟨_, rfl, ?_⟩
    exact
      { chunk := rfl, input := rfl, maxPayload := rfl, router := rfl, failed := hf
        backlog := fun _ => ⟨backlog, h, rfl⟩, deliveries := rfl, feed := rfl }
  | case2 done told d e hnext =>
    have hd := Decoder.decode_of_next_eq_error h hnext
    rw [Decoder.next_of_rejected h hd, Transcript.ofBuffer_of_rejected hd]
    exact ⟨_, rfl, follows_fail e _ d { d.decoder with state := .desynchronized } rfl⟩
  | case3 done told d f hnext e hdispatch =>
    obtain ⟨rest, hd⟩ := Decoder.decode_of_next_eq_frame h hnext
    rw [Decoder.next_of_frame h hd, Transcript.ofBuffer_of_dispatch_error hd hdispatch]
    exact ⟨_, rfl, follows_fail e _ d { d.decoder with state := .reading (.ofBytes rest) } rfl⟩
  | case4 done told d f hnext deliveries router hdispatch feed notices hfeed ih =>
    obtain ⟨rest, hd⟩ := Decoder.decode_of_next_eq_frame h hnext
    rw [Decoder.next_of_frame h hd] at ih ⊢
    rw [Transcript.ofBuffer_of_dispatch hd hdispatch, Frame.decodeAll_of_frame hd]
    obtain ⟨r, hr, hrest⟩ := @ih (.ofBytes rest) hf rfl
    refine ⟨r.after deliveries.reverse notices.reverse, ?_, ?_⟩
    · rw [hr, Routed.after_after]
    · have hsaid : (r.after deliveries.reverse notices.reverse).deliveries =
          deliveries ++ r.deliveries := by simp [Routed.after]
      exact
        { chunk := hrest.chunk, input := hrest.input, maxPayload := hrest.maxPayload
          router := hrest.router, failed := hrest.failed, backlog := hrest.backlog
          deliveries := by
            rw [hsaid, hrest.deliveries]
            rfl
          feed := by
            rw [hsaid, deliverAll_append, hfeed]
            exact hrest.feed }

/-- Routing what the decoder holds is routing the transcript of it. -/
theorem follows_routeAll {d : Demultiplexer} {backlog : ByteQueue} (hf : d.failed = false)
    (h : d.decoder.state = .reading backlog) :
    Follows (Transcript.ofBuffer d.decoder.maxPayload d.router backlog.bytes)
      (Frame.decodeAll d.decoder.maxPayload backlog.bytes).2.2 d (routeAll d) := by
  obtain ⟨r, hr, hfollows⟩ := follows_routeFrom hf h [] []
  rw [routeAll, hr]
  exact hfollows

variable {max : Nat} {taken out : Bytes} {d : Demultiplexer}

/-- What has been taken was decoded and routed; nothing is said about the feed. -/
structure StandsAfter (max : Nat) (taken : Bytes) (d : Demultiplexer) : Prop where
  maxPayload : d.decoder.maxPayload = max
  router : d.router = (Transcript.ofBytes max taken).router
  failed : d.failed = (Transcript.ofBytes max taken).failure.isSome
  backlog : d.failed = false → ∃ backlog, d.decoder.state = .reading backlog ∧
    backlog.bytes = (Frame.decodeAll max taken).2.2

theorem Tells.standsAfter (h : d.Tells max taken out) : d.StandsAfter max taken :=
  { maxPayload := h.maxPayload, router := h.router, failed := h.failed, backlog := h.backlog }

/-- What the decoder holds once it has been fed. -/
theorem StandsAfter.exists_backlog_feed (h : d.StandsAfter max taken) (hf : d.failed = false)
    (bs : Bytes) :
    ∃ backlog, d.decoder.feed bs = { maxPayload := max, state := .reading backlog } ∧
      backlog.bytes = (Frame.decodeAll max taken).2.2 ++ bs := by
  obtain ⟨backlog, hstate, hbytes⟩ := h.backlog hf
  refine ⟨backlog.push bs, ?_, ?_⟩
  · simp [Decoder.feed, hstate, h.maxPayload]
  · rw [ByteQueue.bytes_push, hbytes]

/-- What more bytes say comes after what has been said. -/
theorem StandsAfter.ofBytes_append (h : d.StandsAfter max taken) (hf : d.failed = false)
    (bs : Bytes) :
    Transcript.ofBytes max (taken ++ bs) =
      (Transcript.ofBuffer max d.router ((Frame.decodeAll max taken).2.2 ++ bs)).after
        (Transcript.ofBytes max taken).deliveries := by
  have hfailure : (Transcript.ofBytes max taken).failure = none := by
    simpa [hf] using h.failed.symm
  rw [h.router]
  exact Transcript.ofBuffer_append hfailure bs

/-- Routing what the decoder has been fed is routing the transcript that continues. -/
theorem StandsAfter.follows_routeAll_feed (h : d.StandsAfter max taken) (hf : d.failed = false)
    (bs : Bytes) :
    let buffer := (Frame.decodeAll max taken).2.2 ++ bs
    let fed := { d with decoder := d.decoder.feed bs }
    Follows (Transcript.ofBuffer max d.router buffer) (Frame.decodeAll max buffer).2.2 fed
      (routeAll fed) := by
  intro buffer fed
  obtain ⟨backlog, hfeed, hbytes⟩ := h.exists_backlog_feed hf bs
  have hstate : fed.decoder.state = .reading backlog := congrArg Decoder.state hfeed
  have hmax : fed.decoder.maxPayload = max := congrArg Decoder.maxPayload hfeed
  have hfollows := follows_routeAll (d := fed) hf hstate
  rwa [hmax, hbytes] at hfollows

/-- A demultiplexer that is fed and routes stands after all that it has been fed. -/
theorem StandsAfter.routeAll_feed (h : d.StandsAfter max taken) (hf : d.failed = false)
    (bs : Bytes) :
    (routeAll { d with decoder := d.decoder.feed bs }).demux.StandsAfter max (taken ++ bs) := by
  obtain ⟨backlog, hfeed, -⟩ := h.exists_backlog_feed hf bs
  have hfollows := h.follows_routeAll_feed hf bs
  have happend := h.ofBytes_append hf bs
  have hfailure : (Transcript.ofBytes max taken).failure = none := by
    simpa [hf] using h.failed.symm
  constructor
  · rw [hfollows.maxPayload]
    exact congrArg Decoder.maxPayload hfeed
  · rw [hfollows.router, happend]
    rfl
  · rw [hfollows.failed, happend]
    rfl
  · intro hnf
    rw [Frame.decodeAll_append (Transcript.incomplete_of_failure_eq_none hfailure)]
    refine hfollows.backlog ?_
    simpa [hfollows.failed] using hnf

/-- Bytes that are fed to the decoder and routed continue the transcript. -/
theorem Tells.routeAll_feed {bs : Bytes} (h : d.Tells max taken out) (hf : d.failed = false) :
    (routeAll { d with decoder := d.decoder.feed bs }).demux.Tells max (taken ++ bs) out := by
  have hstands := h.standsAfter.routeAll_feed hf bs
  have hfollows := h.standsAfter.follows_routeAll_feed hf bs
  have hopens := Transcript.opens_ofBuffer max d.router ((Frame.decodeAll max taken).2.2 ++ bs)
  have hserves := h.feed.deliverAll h.tidy hopens
  have htidy := (h.tidy.deliverAll hopens).2
  constructor
  · rw [hfollows.chunk]
    exact h.chunk
  · exact hstands.maxPayload
  · exact hstands.router
  · exact hstands.failed
  · exact hstands.backlog
  · rw [hfollows.feed, hfollows.deliveries, h.standsAfter.ofBytes_append hf, Transcript.requests,
      Transcript.deliveries_after, Account.recordAll_append]
    exact hserves
  · rw [hfollows.feed, hfollows.deliveries, hfollows.router]
    exact htidy

theorem chunk_routeFrom (done : List Delivery) (told : List Notice) (d : Demultiplexer) :
    (routeFrom done told d).demux.chunk = d.chunk := by
  fun_induction routeFrom done told d with
  | case1 | case2 | case3 => rfl
  | case4 done told d f _ deliveries router _ feed notices _ ih => exact ih

theorem Tells.prune (h : d.Tells max taken out) : d.prune.Tells max taken out :=
  { h with
    feed := h.feed.prune (Transcript.coherent_requests _)
    tidy := h.tidy.prune }

section

variable {σ : Type} [Source σ] {H : Bytes → Status → σ → Prop} {blocking : Blocking} {s : σ}

/-- A demultiplexer tells what it has taken, and what it has taken comes from its source. -/
def Traces (H : Bytes → Status → σ → Prop) (max : Nat) (out : Bytes) (d : Demultiplexer)
    (s : σ) : Prop :=
  ∃ taken, d.Tells max taken out ∧ H (taken ++ d.input.buffer) d.input.last s

theorem pump_of_failed (hf : d.failed = true) :
    d.pump blocking s = { progress := false, demux := d, source := s } := by
  simp [pump, hf]

/-- A pump that has not failed takes bytes and routes what they say. -/
theorem pump_of_not_failed (blocking : Blocking) (s : σ) (hf : d.failed = false) :
    let took := d.input.take d.chunk blocking s
    let routed := routeAll
      { d with input := took.2.1, pumps := d.pumps + 1, decoder := d.decoder.feed took.1 }
    (d.pump blocking s).source = took.2.2 ∧ (d.pump blocking s).taken = took.1 ∧
      (took.1 = [] ∧ (d.pump blocking s).progress = false ∧
          (d.pump blocking s).demux = { d with input := took.2.1, pumps := d.pumps + 1 } ∧
          (d.pump blocking s).deliveries = [] ∨
        took.1 ≠ [] ∧ (d.pump blocking s).progress = true ∧
          (d.pump blocking s).demux = routed.demux ∧
          (d.pump blocking s).deliveries = routed.deliveries) := by
  unfold pump
  simp only [hf, Bool.false_eq_true, if_false]
  by_cases hb : (d.input.take d.chunk blocking s).1 = [] <;> simp [hb]

/-- How much is taken at once never changes. -/
theorem chunk_pump (blocking : Blocking) (d : Demultiplexer) (s : σ) :
    (d.pump blocking s).demux.chunk = d.chunk := by
  cases hf : d.failed with
  | true => rw [pump_of_failed hf]
  | false =>
    obtain ⟨-, -, ⟨-, -, hd, -⟩ | ⟨-, -, hd, -⟩⟩ := pump_of_not_failed blocking s hf
    · rw [hd]
    · rw [hd, routeAll, chunk_routeFrom]

/-- What a pump takes, and what is buffered after it, comes from the source. -/
theorem pump_keeps (blocking : Blocking) (hH : Source.Keeps H)
    (h : H (taken ++ d.input.buffer) d.input.last s) :
    H (taken ++ (d.pump blocking s).taken ++ (d.pump blocking s).demux.input.buffer)
      (d.pump blocking s).demux.input.last (d.pump blocking s).source := by
  cases hf : d.failed with
  | true =>
    rw [pump_of_failed hf, List.append_nil]
    exact h
  | false =>
    have hkeeps := Input.take_keeps d.chunk blocking hH h
    obtain ⟨hs, htaken, hcases⟩ := pump_of_not_failed blocking s hf
    rw [hs, htaken]
    rcases hcases with ⟨-, -, hd, -⟩ | ⟨-, -, hd, -⟩
    · rw [hd]
      exact hkeeps
    · rw [hd, input_routeAll]
      exact hkeeps

theorem Traces.pump (hH : Source.Keeps H) (h : d.Traces H max out s) :
    (d.pump blocking s).demux.Traces H max out (d.pump blocking s).source := by
  obtain ⟨taken, htells, hsource⟩ := h
  have hkeeps := pump_keeps blocking hH hsource
  cases hf : d.failed with
  | true =>
    rw [pump_of_failed hf]
    exact ⟨taken, htells, hsource⟩
  | false =>
    obtain ⟨-, htaken, ⟨hnil, -, hd, -⟩ | ⟨-, -, hd, -⟩⟩ := pump_of_not_failed blocking s hf
    · rw [htaken, hnil, List.append_nil] at hkeeps
      rw [hd] at hkeeps ⊢
      exact ⟨taken, { htells with }, hkeeps⟩
    · refine ⟨_, ?_, hkeeps⟩
      rw [hd, htaken]
      exact Tells.routeAll_feed
        (d := { d with input := (d.input.take d.chunk blocking s).2.1, pumps := d.pumps + 1 })
        { htells with } hf

omit [Source σ] in
theorem Traces.prune (h : d.Traces H max out s) : d.prune.Traces H max out s := by
  obtain ⟨taken, htells, hsource⟩ := h
  exact ⟨taken, htells.prune, hsource⟩

theorem chunk_pumpUntilReady (blocking : Blocking) (d : Demultiplexer) (s : σ) :
    (d.pumpUntilReady blocking s).1.chunk = d.chunk := by
  unfold Demultiplexer.pumpUntilReady
  generalize ([] : List Notice) = told
  fun_induction pumpFrom told blocking d s with
  | case1 => rfl
  | case2 told d s _ _ pumped _ _ ih => exact ih.trans (chunk_pump blocking d.prune s)
  | case3 told d s _ _ pumped _ _ => exact chunk_pump blocking d.prune s

theorem Traces.pumpUntilReady (blocking : Blocking) (hH : Source.Keeps H)
    (h : d.Traces H max out s) :
    (d.pumpUntilReady blocking s).1.Traces H max out (d.pumpUntilReady blocking s).2.1 := by
  unfold Demultiplexer.pumpUntilReady
  generalize ([] : List Notice) = told
  fun_induction pumpFrom told blocking d s with
  | case1 told d s => exact h.prune
  | case2 told d s _ _ pumped _ _ ih => exact ih (h.prune.pump hH)
  | case3 told d s _ _ pumped _ _ => exact h.prune.pump hH

/-- All bytes that the source gave have been taken, and its last read gave none. -/
def Starved (σ : Type) [Source σ] (d : Demultiplexer) : Prop :=
  d.input.buffer = [] ∧ ∃ (blocking : Blocking) (n : Nat) (s : σ),
    d.input.last = (Source.read ⟨.bytes, blocking, n⟩ s).1.status ∧
      (Source.read ⟨.bytes, blocking, n⟩ s).1.output.bytes = []

/-- A pump that makes no progress has failed before, or was given nothing. -/
theorem pump_of_not_progress (hc : d.chunk ≠ 0) (h : (d.pump blocking s).progress = false) :
    (d.pump blocking s).demux.feed = d.feed ∧ (d.pump blocking s).demux.failed = d.failed ∧
      (d.failed = true ∨ (d.pump blocking s).demux.Starved σ) := by
  cases hf : d.failed with
  | true =>
    rw [pump_of_failed hf]
    exact ⟨rfl, hf, Or.inl rfl⟩
  | false =>
    obtain ⟨-, -, ⟨hnil, -, hd, -⟩ | ⟨-, hp, -⟩⟩ := pump_of_not_failed blocking s hf
    · obtain ⟨hbuffer, hlast, hnone⟩ := Input.take_eq_nil hc hnil
      rw [hd]
      exact ⟨rfl, hf, Or.inr ⟨hbuffer, blocking, d.chunk, s, hlast, hnone⟩⟩
    · rw [h] at hp
      exact absurd hp Bool.false_ne_true

/-- Pumping stops when there is something to report, when the input has failed, or when the source
gives nothing more. -/
theorem stopped_pumpUntilReady (blocking : Blocking) (hH : Source.Keeps H)
    (h : d.Traces H max out s) :
    (d.pumpUntilReady blocking s).1.feed.prune = (d.pumpUntilReady blocking s).1.feed ∧
      ((d.pumpUntilReady blocking s).1.feed.hasError = true ∨
        (d.pumpUntilReady blocking s).1.feed.hasData = true ∨
        (d.pumpUntilReady blocking s).1.failed = true ∨
        (d.pumpUntilReady blocking s).1.Starved σ) := by
  unfold Demultiplexer.pumpUntilReady
  generalize ([] : List Notice) = told
  fun_induction pumpFrom told blocking d s with
  | case1 told d s _ hready =>
    refine ⟨Feed.prune_prune d.feed, ?_⟩
    have hready : (d.feed.hasError || d.feed.hasData) = true := hready
    rcases Bool.or_eq_true_iff.mp hready with herr | hdata
    · exact Or.inl ((Feed.hasError_prune d.feed).trans herr)
    · exact Or.inr (Or.inl ((Feed.hasData_prune d.feed).trans hdata))
  | case2 told d s _ _ pumped _ _ ih => exact ih (h.prune.pump hH)
  | case3 told d s _ _ pumped _ hp =>
    obtain ⟨taken, htells, -⟩ := h.prune
    obtain ⟨hfeed, hfailed, hwhy⟩ := pump_of_not_progress htells.chunk (by simpa using hp)
    constructor
    · simp only [pumped, hfeed]
      exact Feed.prune_prune d.feed
    · rcases hwhy with hf | hstarved
      · exact Or.inr (Or.inr (Or.inl (hfailed.trans hf)))
      · exact Or.inr (Or.inr (Or.inr hstarved))

/-- Nothing is taken while there is something to report. -/
theorem pumpUntilReady_of_ready (blocking : Blocking) (s : σ)
    (h : (d.feed.hasError || d.feed.hasData) = true) :
    (d.pumpUntilReady blocking s).1 = d.prune ∧ (d.pumpUntilReady blocking s).2.1 = s := by
  have hready : d.prune.feed.isReady = true := h
  rw [pumpUntilReady, pumpFrom, if_pos hready]
  exact ⟨rfl, rfl⟩

/-- A failed demultiplexer takes nothing more. -/
theorem pumpUntilReady_of_failed (blocking : Blocking) (s : σ) (hf : d.failed = true) :
    (d.pumpUntilReady blocking s).1 = d.prune ∧ (d.pumpUntilReady blocking s).2.1 = s := by
  have hf' : d.prune.failed = true := hf
  rw [pumpUntilReady, pumpFrom]
  split
  · exact ⟨rfl, rfl⟩
  · rw [pump_of_failed hf']
    exact ⟨rfl, rfl⟩

/-- When the end of the input comes without bytes, pumping stops there with nothing to report. -/
theorem idle_of_last_eq_eof (hb : Source.EndsBare σ) (hH : Source.Keeps H)
    (ht : d.Traces H max out s) (hl : d.input.last ≠ .failed .eof)
    (h : (d.pumpUntilReady blocking s).1.input.last = .failed .eof) :
    (d.pumpUntilReady blocking s).1.failed = false ∧
      (d.pumpUntilReady blocking s).1.feed.hasError = false ∧
      (d.pumpUntilReady blocking s).1.feed.hasData = false := by
  unfold Demultiplexer.pumpUntilReady at h ⊢
  generalize ([] : List Notice) = told at h ⊢
  fun_induction pumpFrom told blocking d s with
  | case1 => exact absurd h hl
  | case2 told d s _ _ pumped _ hp ih =>
    refine ih (ht.prune.pump hH) ?_ h
    cases hf : d.prune.failed with
    | true =>
      rw [pump_of_failed hf] at hp
      exact absurd hp Bool.false_ne_true
    | false =>
      obtain ⟨-, -, ⟨-, hnp, -⟩ | ⟨hne, -, hd, -⟩⟩ := pump_of_not_failed blocking s hf
      · rw [hp] at hnp
        exact absurd hnp (by decide)
      · simp only [pumped]
        rw [hd, input_routeAll]
        rcases Input.last_take_of_ne_nil hne with hsame | ⟨hnew, hbytes⟩
        · rw [hsame]
          exact hl
        · intro heof
          rw [hnew] at heof
          exact hbytes (hb _ _ _ heof)
  | case3 told d s _ hready pumped _ hp =>
    obtain ⟨taken, htells, -⟩ := ht.prune
    have hp : (d.prune.pump blocking s).progress = false := by simpa using hp
    obtain ⟨hfeed, hfailed, -⟩ := pump_of_not_progress htells.chunk hp
    have hidle : d.feed.hasError = false ∧ d.feed.hasData = false :=
      Bool.or_eq_false_iff.mp (Bool.not_eq_true _ ▸ hready)
    constructor
    · cases hf : d.prune.failed with
      | false => exact hfailed.trans hf
      | true =>
        simp only [pumped] at h
        rw [pump_of_failed hf] at h
        exact absurd h hl
    · simp only [pumped]
      rw [hfeed]
      exact ⟨(Feed.hasError_prune d.feed).trans hidle.1, (Feed.hasData_prune d.feed).trans hidle.2⟩

end

end Demultiplexer
end RequestFeed
