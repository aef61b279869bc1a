import RequestFeed.Proofs.Feed.Pumping
import RequestFeed.Proofs.Filter.Session
import RequestFeed.Proofs.Stream.Dispatch
/-!
# Runs of pumps

A run pumps one time after the other, each time under a blocking mode of its own and perhaps with
another source bound. It keeps what the pumps took, which is what the decoder was fed, and what
they delivered.

*Invariant.* `PumpRun.Faithful`: what the source gave has been fed or is still buffered, and what
was delivered is the transcript of what was fed. Where the bytes were cut, by the source, by the
buffer or by the chunk, does not show.

*Results.*
* `Demultiplexer.StandsAfter.pump`: a pump delivers what the bytes that it takes add to the
  transcript.
* `PumpRun.Faithful.step`: one pump keeps the invariant.
* `PumpRun.pumps_faithfully`: every run keeps it, and no pump reads more than once.
-/

namespace RequestFeed

namespace Demultiplexer

variable {σ : Type} [Source σ] {max : Nat} {taken : Bytes} {d : Demultiplexer}

/-- One pump: the bytes that it takes are fed, and what they say is delivered. -/
theorem StandsAfter.pump (h : d.StandsAfter max taken) (blocking : Blocking) (s : σ) :
    (d.pump blocking s).demux.StandsAfter max (taken ++ (d.pump blocking s).taken) ∧
      (Transcript.ofBytes max (taken ++ (d.pump blocking s).taken)).deliveries =
        (Transcript.ofBytes max taken).deliveries ++ (d.pump blocking s).deliveries ∧
      (d.pump blocking s).demux.feed =
        (d.feed.deliverAll (d.pump blocking s).deliveries).1 := by
  cases hf : d.failed with
  | true =>
    rw [pump_of_failed hf]
    simp [h, Feed.deliverAll]
  | false =>
    obtain ⟨-, htaken, hcases⟩ := pump_of_not_failed blocking s hf
    rw [← htaken] at hcases
    rcases hcases with ⟨hnil, -, hd, hsaid⟩ | ⟨hne, -, hd, hsaid⟩
    · rw [hd, hsaid, hnil, List.append_nil, List.append_nil]
      exact ⟨{ h with }, rfl, rfl⟩
    · have hstands : StandsAfter max taken
          { d with
            input := (d.input.take d.chunk blocking s).2.1
            pumps := d.pumps + 1 } := { h with }
      have hfollows := hstands.follows_routeAll_feed hf (d.pump blocking s).taken
      rw [hd, hsaid]
      refine ⟨hstands.routeAll_feed hf _, ?_, hfollows.feed⟩
      rw [h.ofBytes_append hf, Transcript.deliveries_after, hfollows.deliveries]

end Demultiplexer

/-! ### Reads of the source -/

namespace Recorded

variable {σ : Type} [Source σ]

/-- Taking from an input reads the source once when nothing is buffered, and not at all else. -/
theorem calls_take {n : Nat} (hn : n ≠ 0) (blocking : Blocking) (i : Input) (s : Recorded σ) :
    (i.take n blocking s).2.2.calls =
      s.calls ++ if i.buffer = [] then
        [(⟨.bytes, blocking, n⟩, (Source.read ⟨.bytes, blocking, n⟩ s.source).1)] else [] := by
  have hsource : (i.take n blocking s).2.2 = (i.refill n blocking s).2 := by
    rw [Input.take, if_neg hn]
    dsimp only
    split <;> rfl
  rw [hsource, Input.refill]
  split
  · rfl
  · simp

/-- A pump reads at most once, and only when nothing is buffered and it has not failed. -/
theorem calls_pump {d : Demultiplexer} (hd : d.chunk ≠ 0) (blocking : Blocking)
    (s : Recorded σ) :
    (d.pump blocking s).source.calls =
      s.calls ++ if d.failed = false ∧ d.input.buffer = [] then
        [(⟨.bytes, blocking, d.chunk⟩, (Source.read ⟨.bytes, blocking, d.chunk⟩ s.source).1)]
      else [] := by
  cases hf : d.failed with
  | true => simp [Demultiplexer.pump_of_failed hf]
  | false =>
    obtain ⟨hsource, -, -⟩ := Demultiplexer.pump_of_not_failed blocking s hf
    rw [hsource, calls_take hd]
    simp

/-- What a pump takes comes out of what the source has given. -/
theorem delivered_pump {d : Demultiplexer} {fed : Bytes} {s : Recorded σ}
    (h : s.delivered = fed ++ d.input.buffer) (blocking : Blocking) :
    (d.pump blocking s).source.delivered =
      fed ++ (d.pump blocking s).taken ++ (d.pump blocking s).demux.input.buffer :=
  Demultiplexer.pump_keeps blocking keeps_gave h

end Recorded

/-! ### Runs -/

/-- What can happen to a demultiplexer that is pumped. -/
inductive PumpAct (σ : Type) where
  | pump (blocking : Blocking)
  /-- The source changes, or another one is bound. -/
  | move (source : σ)

/-- A demultiplexer, its source, and what the pumps so far have taken and delivered. -/
structure PumpRun (σ : Type) where
  demux : Demultiplexer
  source : Recorded σ
  fed : Bytes := []
  log : List Delivery := []

namespace PumpRun

variable {σ : Type}

/-- The start of a run, for a feed that is there already. -/
def start (chunk max : Nat) (feed : Feed) (s : σ) : PumpRun σ :=
  { demux := { Demultiplexer.create chunk max with feed }, source := { source := s } }

variable [Source σ]

def step (t : PumpRun σ) : PumpAct σ → PumpRun σ
  | .pump blocking =>
    let pumped := t.demux.pump blocking t.source
    { demux := pumped.demux
      source := pumped.source
      fed := t.fed ++ pumped.taken
      log := t.log ++ pumped.deliveries }
  | .move s => { t with source := { t.source with source := s } }

def run (acts : List (PumpAct σ)) (t : PumpRun σ) : PumpRun σ := acts.foldl step t

/-- The run so far has lost nothing, and has delivered the transcript of what was fed. -/
structure Faithful (chunk max : Nat) (feed : Feed) (t : PumpRun σ) : Prop where
  /-- The bytes of the source have been fed, or are still buffered. -/
  conserved : t.source.delivered = t.fed ++ t.demux.input.buffer
  stands : t.demux.StandsAfter max t.fed
  log : t.log = (Transcript.ofBytes max t.fed).deliveries
  feed : t.demux.feed = (feed.deliverAll t.log).1
  chunk : t.demux.chunk = Nat.max chunk 1

variable {chunk max : Nat} {feed : Feed} {t : PumpRun σ}

omit [Source σ] in
theorem faithful_start (chunk max : Nat) (feed : Feed) (s : σ) :
    (start chunk max feed s).Faithful chunk max feed := by
  have hstands := (Demultiplexer.tells_create chunk max).standsAfter
  constructor
  · rfl
  · exact { hstands with }
  · simp [start]
  · rfl
  · rfl

theorem Faithful.step (h : t.Faithful chunk max feed) (a : PumpAct σ) :
    (t.step a).Faithful chunk max feed := by
  cases a with
  | move s =>
    exact
      { conserved := h.conserved, stands := h.stands, log := h.log, feed := h.feed
        chunk := h.chunk }
  | pump blocking =>
    obtain ⟨hstands, hlog, hfeed⟩ := h.stands.pump blocking t.source
    constructor
    · exact Recorded.delivered_pump h.conserved blocking
    · exact hstands
    · rw [PumpRun.step, hlog, h.log]
    · rw [PumpRun.step, hfeed, h.feed, Demultiplexer.deliverAll_append]
    · exact (Demultiplexer.chunk_pump blocking t.demux t.source).trans h.chunk

theorem Faithful.run (h : t.Faithful chunk max feed) (acts : List (PumpAct σ)) :
    (t.run acts).Faithful chunk max feed := by
  induction acts generalizing t with
  | nil => exact h
  | cons a acts ih => exact ih (h.step a)

/--
Whatever is bound and however the bytes are cut: a run has fed to the decoder, in order, what its
sources gave and is no longer buffered; it has delivered what these bytes say and nothing else;
and its next pump reads at most once.
-/
theorem pumps_faithfully (chunk max : Nat) (feed : Feed) (s : σ) (acts : List (PumpAct σ)) :
    let t := (start chunk max feed s).run acts
    t.Faithful chunk max feed ∧
      Transcript.Dispatched max t.fed t.log (Transcript.ofBytes max t.fed).failure ∧
      ∀ blocking : Blocking, (t.step (.pump blocking)).source.calls =
        t.source.calls ++ if t.demux.failed = false ∧ t.demux.input.buffer = [] then
          [(⟨.bytes, blocking, Nat.max chunk 1⟩,
            (Source.read ⟨.bytes, blocking, Nat.max chunk 1⟩ t.source.source).1)]
        else [] := by
  intro t
  have hfaithful : t.Faithful chunk max feed := (faithful_start chunk max feed s).run acts
  have hchunk : t.demux.chunk ≠ 0 := by
    rw [hfaithful.chunk]
    exact Nat.ne_of_gt (Nat.le_max_right chunk 1)
  refine ⟨hfaithful, ?_, ?_⟩
  · rw [hfaithful.log]
    exact Transcript.dispatched_ofBytes max t.fed
  · intro blocking
    rw [← hfaithful.chunk]
    exact Recorded.calls_pump hchunk blocking t.source

/-- Two streams and bytes that are no frame, given at once and taken sixteen at a time; after the
failure another source is bound. -/
def cut : PumpRun ScriptedSource :=
  let piece := (Frame.opening 1 "/a" 0).bytes ++ (Frame.opening 3 "/b" 0).bytes ++
    List.replicate 40 0x58
  (start 16 1024 {} (.ofBytes piece .ok)).run
    (List.replicate 9 (.pump .block) ++ [.move (.ofBytes [0] .ok), .pump .nonBlock])

theorem cut_pumps_faithfully :
    cut.log.drop 4 = [.event 1 .connectionFailed, .event 3 .connectionFailed] ∧
      cut.source.calls.length = 1 ∧ cut.demux.input.buffer ≠ [] ∧
      cut.Faithful 16 1024 {} ∧
      Transcript.Dispatched 1024 cut.fed cut.log (Transcript.ofBytes 1024 cut.fed).failure := by
  obtain ⟨hfaithful, hdispatched, -⟩ :=
    pumps_faithfully 16 1024 {} (.ofBytes _ .ok : ScriptedSource) _
  refine ⟨?_, ?_, ?_, hfaithful, hdispatched⟩
  all_goals decide +kernel

end PumpRun
end RequestFeed
