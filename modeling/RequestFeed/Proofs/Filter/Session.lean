import RequestFeed.Proofs.Filter.Recorded
import RequestFeed.Proofs.Request.Production
import RequestFeed.Read.Scripted
/-!
# Sessions

A session is all that happens to a filter on one connection: reads by a consumer, in any modes
and with any limits, and what others do in between. They may give the connection up, and they may
record an outcome of protocol selection. The source may change by itself at any time, so every
behaviour of a source is one of a session.

*Results.*
* `Session.sound_run`: a filter that has not passed its connection through is sound.
* `Session.delivers_in_order`: the consumer gets what the streams of the connection have produced,
  in the order in which they were first seen.
-/

namespace RequestFeed

/-- What can happen to a filter on a connection. -/
inductive Act (σ : Type) where
  /-- The consumer reads. -/
  | read (request : ReadRequest)
  /-- The connection is given up. -/
  | giveUp
  /-- The outcome of protocol selection is recorded. -/
  | agree (protocol : ProtocolState)
  /-- The source changes. -/
  | move (source : σ)

/-- A filter, its source, and the reads so far with their answers. -/
structure Session (σ : Type) where
  filter : Filter
  source : Recorded σ
  answers : List (ReadRequest × Except Violation Reply) := []

namespace Session

variable {σ : Type}

/-- The start of a session. -/
def start (context : ConnectionContext) (c : FilterConfig) (s : σ) : Session σ :=
  { filter := Filter.ofConfig context c, source := { source := s } }

/-- The bytes that an answer takes out of the feed. -/
def consumedBy : ReadRequest × Except Violation Reply → Bytes
  | (r, .ok reply) => reply.consumed r
  | (_, .error _) => []

/-- All bytes that the consumer has got for good. -/
def consumed (t : Session σ) : Bytes := t.answers.flatMap consumedBy

/-- The answer says that the input has ended. -/
def SaysEnd : Except Violation Reply → Prop
  | .ok reply => reply.status = .failed .eof
  | .error _ => False

instance : DecidablePred SaysEnd
  | .ok reply => inferInstanceAs (Decidable (reply.status = .failed .eof))
  | .error _ => inferInstanceAs (Decidable False)

variable [Source σ]

/-- What one act brings about. -/
def step (t : Session σ) : Act σ → Session σ
  | .read r =>
    let result := t.filter.read r t.source
    { filter := result.filter, source := result.source
      answers := t.answers ++ [(r, result.reply)] }
  | .giveUp => { t with filter := t.filter.abortConnection }
  | .agree p => { t with filter := t.filter.setProtocol p }
  | .move s => { t with source := { t.source with source := s } }

/-- What acts bring about, one after the other. -/
def run (acts : List (Act σ)) (t : Session σ) : Session σ := acts.foldl step t

@[simp] theorem run_nil (t : Session σ) : t.run [] = t := rfl

@[simp] theorem run_cons (a : Act σ) (acts : List (Act σ)) (t : Session σ) :
    t.run (a :: acts) = (t.step a).run acts := rfl

/-- The answers that acts bring about. -/
def heard : List (Act σ) → Session σ → List (ReadRequest × Except Violation Reply)
  | [], _ => []
  | .read r :: acts, t => (r, (t.filter.read r t.source).reply) :: heard acts (t.step (.read r))
  | a :: acts, t => heard acts (t.step a)

theorem answers_run (acts : List (Act σ)) (t : Session σ) :
    (t.run acts).answers = t.answers ++ t.heard acts := by
  induction acts generalizing t with
  | nil => simp [heard]
  | cons a acts ih =>
    rw [run_cons, ih]
    cases a with
    | read r => simp [heard, step]
    | giveUp | agree | move => rfl

/-- The filter has not passed its connection through, and is sound. -/
def Sound (max : Nat) (t : Session σ) : Prop :=
  t.filter.phase ≠ .passThrough → t.filter.Sound Recorded.Gave max t.consumed t.source

variable {max : Nat} {t : Session σ}

omit [Source σ] in
theorem sound_start (context : ConnectionContext) (c : FilterConfig) (s : σ) :
    (start context c s).Sound c.maxPayloadSize :=
  fun _ => Filter.sound_ofConfig context c rfl

theorem phase_step_of_passThrough (h : t.filter.phase = .passThrough) (a : Act σ) :
    (t.step a).filter.phase = .passThrough := by
  cases a with
  | read r => exact Filter.phase_read_of_passThrough h
  | giveUp | agree | move => exact h

theorem phase_ne_of_step {a : Act σ} (h : (t.step a).filter.phase ≠ .passThrough) :
    t.filter.phase ≠ .passThrough :=
  fun hpass => h (phase_step_of_passThrough hpass a)

theorem consumed_step_read {r : ReadRequest} {reply : Reply}
    (h : (t.filter.read r t.source).reply = .ok reply) :
    (t.step (.read r)).consumed = t.consumed ++ reply.consumed r := by
  simp [consumed, step, h, consumedBy]

/-- A read in a session is answered, and what it consumes is delivered. -/
theorem Sound.read (h : t.Sound max) (r : ReadRequest)
    (hp : (t.step (.read r)).filter.phase ≠ .passThrough) :
    ∃ reply, (t.filter.read r t.source).reply = .ok reply ∧
      (t.step (.read r)).consumed = t.consumed ++ reply.consumed r ∧
      (t.step (.read r)).Sound max := by
  have hsound := h (phase_ne_of_step hp)
  obtain ⟨reply, hreply, hafter⟩ := hsound.read Recorded.keeps_gave Recorded.probeKeeps_gave hp
  refine ⟨reply, hreply, consumed_step_read hreply, fun _ => ?_⟩
  rw [consumed_step_read hreply]
  exact hafter

theorem Sound.step (h : t.Sound max) (a : Act σ) : (t.step a).Sound max := by
  cases a with
  | read r =>
    intro hp
    obtain ⟨_, _, _, hsound⟩ := h.read r hp
    exact hsound hp
  | giveUp | agree | move =>
    intro hp
    have hf := h hp
    exact { traces := hf.traces, done := hf.done, cause := hf.cause }

theorem Sound.run (h : t.Sound max) (acts : List (Act σ)) : (t.run acts).Sound max := by
  induction acts generalizing t with
  | nil => exact h
  | cons a acts ih => exact ih (h.step a)

/-- Whatever happens, a filter that has not passed its connection through is sound. -/
theorem sound_run (context : ConnectionContext) (c : FilterConfig) (s : σ) (acts : List (Act σ)) :
    ((start context c s).run acts).Sound c.maxPayloadSize :=
  (sound_start context c s).run acts

/-- What the consumer has got of what streams have produced. -/
structure DeliversInOrder (t : Session σ) (produced : List Production) : Prop where
  /-- The consumer has got the first of what the streams have produced, one after the other. -/
  ordered : t.consumed <+: produced.flatMap Production.bytes
  /-- Who gets to a stream has got all of the streams before it, and these are complete. -/
  complete : ∀ n, ((produced.take n).flatMap Production.bytes).length < t.consumed.length →
    ∀ p ∈ produced.take n, p.growth = .complete
  /-- When the filter is exhausted, nothing is missing through the first stream that is not
  complete. -/
  whole : t.filter.phase = .exhausted →
    t.consumed = (Production.throughGrowing produced).flatMap Production.bytes

/--
Whatever happens, the consumer gets what the streams have produced that the bytes taken so far tell
of, in the order in which the streams were first seen.
-/
theorem delivers_in_order (context : ConnectionContext) (c : FilterConfig) (s : σ)
    (acts : List (Act σ)) :
    let t := (start context c s).run acts
    t.filter.phase ≠ .passThrough →
    ∃ taken, t.source.delivered = taken ++ t.filter.demux.input.buffer ∧
      t.DeliversInOrder (Transcript.ofBytes c.maxPayloadSize taken).productions := by
  intro t hp
  have hsound : t.Sound c.maxPayloadSize := sound_run context c s acts
  obtain ⟨taken, htells, hgave⟩ := (hsound hp).traces
  have hturn := htells.feed.inTurn
  have hcoherent := Transcript.coherent_requests (Transcript.ofBytes c.maxPayloadSize taken)
  refine ⟨taken, hgave, ?_⟩
  -- the outputs that the feed is compared with hold what the streams have produced
  rw [← Transcript.map_production_requests]
  constructor
  · rw [List.flatMap_map]
    exact hturn.prefix_flatMap
  · intro n hlt
    rw [← List.map_take, List.flatMap_map] at hlt
    rw [← List.map_take, List.forall_mem_map]
    exact hturn.complete_of_length_lt hlt
  · intro hexhausted
    have hdone := (hsound hp).done hexhausted
    rw [← Account.map_production_throughGrowing, List.flatMap_map]
    exact (htells.feed.all_of_idle hcoherent hdone.hasError hdone.hasData).2

end Session

/-- The frame that opens a stream for a request. -/
def Frame.opening (stream : StreamId) (target : String) (flags : UInt8) : Frame :=
  { kind := .opening, flags, stream
    payload := HeaderBlock.encode ⟨[("method", "GET"), ("url", target), ("version", "HTTP/1.1")]⟩ }

/-- A source that gives everything at once, and then says that the input has ended. -/
def ScriptedSource.ofBytes (bs : Bytes) (status : Status) : ScriptedSource :=
  { script := [.answer (Brigade.ofBytes bs) status] }

namespace Session

/-- Two requests in one piece, read in parts. -/
def twoRequests : Session ScriptedSource :=
  let piece := (Frame.opening 1 "/a" 1).bytes ++ (Frame.opening 3 "/b" 1).bytes
  (start { protocol := .multiplexed } {} (.ofBytes piece (.failed .eof))).run
    [.read ⟨.bytes, .block, 5⟩, .read ⟨.speculative, .block, 0⟩, .read ⟨.exhaustive, .block, 0⟩,
      .read ⟨.bytes, .block, 4⟩, .read ⟨.bytes, .block, 0⟩]

theorem twoRequests_deliver_in_order :
    twoRequests.filter.phase = .exhausted ∧
      ∃ taken, twoRequests.source.delivered = taken ++ twoRequests.filter.demux.input.buffer ∧
        twoRequests.DeliversInOrder
          (Transcript.ofBytes ({} : FilterConfig).maxPayloadSize taken).productions := by
  have hexhausted : twoRequests.filter.phase = .exhausted := by decide +kernel
  refine ⟨hexhausted, delivers_in_order _ {} _ _ ?_⟩
  rw [← twoRequests, hexhausted]
  decide

end Session
end RequestFeed
