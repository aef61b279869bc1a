import RequestFeed.Command.Demux
import RequestFeed.Proofs.Filter.Ending
import RequestFeed.Proofs.Read.Content
/-!
# Replays

A replay reads a recorded connection through a filter to its end. What the recording says is
decided by its bytes alone: its transcript. The sizes of buffers and pieces decide only how much
of a recording that makes no sense is printed before that is found out.

*Results.*
* `Filter.Replays.read`: one read prints more of the feed, or ends as the transcript says.
* `DemuxCommand.replay_eq_of_content`: two replays of one content end alike; one prints what the
  other prints and perhaps more, and nothing more when they succeed.
-/

namespace RequestFeed

namespace Transcript

/-- The bytes make no sense, or a failed request is next in turn. -/
def isDoomed (t : Transcript) : Bool := t.failure.isSome || t.requests.isBlocked

/-- More bytes only add to what is delivered. -/
theorem requests_ofBytes_append (max : Nat) (bs more : Bytes) :
    ∃ ds, (ofBytes max (bs ++ more)).requests = (ofBytes max bs).requests.recordAll ds := by
  cases hf : (ofBytes max bs).failure with
  | none =>
    have happend := ofBuffer_append hf more
    rw [← ofBytes, ← ofBytes] at happend
    exact ⟨_, by rw [happend, requests, deliveries_after, Account.recordAll_append]; rfl⟩
  | some e =>
    have happend := ofBuffer_append_of_failure hf more
    rw [← ofBytes, ← ofBytes] at happend
    exact ⟨[], by rw [happend]; rfl⟩

/-- No more bytes save a connection. -/
theorem isDoomed_append {max : Nat} {bs : Bytes} (h : (ofBytes max bs).isDoomed = true)
    (more : Bytes) : (ofBytes max (bs ++ more)).isDoomed = true := by
  cases hf : (ofBytes max bs).failure with
  | none =>
    obtain ⟨ds, hrequests⟩ := requests_ofBytes_append max bs more
    have hblocked : (ofBytes max bs).requests.isBlocked = true := by simpa [isDoomed, hf] using h
    rw [isDoomed, hrequests, Account.isBlocked_recordAll hblocked (coherent_requests _),
      Bool.or_true]
  | some e =>
    have happend := ofBuffer_append_of_failure hf more
    rw [← ofBytes, ← ofBytes] at happend
    rw [happend]
    exact h

end Transcript

/-- How the replay of a content ends that has printed these bytes. -/
inductive Replayed (max : Nat) (content out : Bytes) : ReadError → Prop where
  /-- The content makes sense, and everything is printed. -/
  | whole :
      (Transcript.ofBytes max content).isDoomed = false →
      out = (Transcript.ofBytes max content).requests.throughGrowing.flatMap Projection.written →
      Replayed max content out .eof
  /-- The content makes no sense, and some of what it says before is printed. -/
  | broken :
      (Transcript.ofBytes max content).isDoomed = true →
      out <+: (Transcript.ofBytes max content).requests.flatMap Projection.written →
      Replayed max content out .general

theorem Account.throughGrowing_prefix (ps : Account) : ps.throughGrowing <+: ps := by
  induction ps with
  | nil => exact List.prefix_rfl
  | cons p ps ih =>
    rw [throughGrowing]
    split
    · exact (List.prefix_cons_inj p).mpr ih
    · exact (List.prefix_cons_inj p).mpr List.nil_prefix

theorem Replayed.prefix_flatMap {max : Nat} {content out : Bytes} {e : ReadError}
    (h : Replayed max content out e) :
    out <+: (Transcript.ofBytes max content).requests.flatMap Projection.written := by
  cases h with
  | whole _ hout =>
    obtain ⟨rest, hrest⟩ := (Transcript.ofBytes max content).requests.throughGrowing_prefix
    refine ⟨rest.flatMap Projection.written, ?_⟩
    rw [hout, ← List.flatMap_append, hrest]
  | broken _ hout => exact hout

section

variable {max : Nat} {content taken out : Bytes} {d : Demultiplexer}

/-- A demultiplexer that has taken everything and has nothing to report has delivered everything. -/
theorem Replayed.of_idle (h : d.Tells max content out) (hf : d.failed = false)
    (herr : d.feed.hasError = false) (hdata : d.feed.hasData = false) :
    Replayed max content out .eof := by
  obtain ⟨hclear, hout⟩ := h.feed.all_of_idle (Transcript.coherent_requests _) herr hdata
  refine .whole ?_ hout
  rw [Transcript.isDoomed, hclear, ← h.failed, hf]
  rfl

/-- A demultiplexer that has to report a failure finds the content to make no sense. -/
theorem Replayed.of_failure (h : d.Tells max taken out)
    (hwhy : d.feed.hasError = true ∨ d.failed = true) (more : Bytes) :
    Replayed max (taken ++ more) out .general := by
  have hdoomed : (Transcript.ofBytes max taken).isDoomed = true := by
    unfold Transcript.isDoomed
    rcases hwhy with herr | hf
    · rw [h.feed.isBlocked_of_hasError (Transcript.coherent_requests _) herr, Bool.or_true]
    · rw [← h.failed, hf, Bool.true_or]
  obtain ⟨ds, hrequests⟩ := Transcript.requests_ofBytes_append max taken more
  refine .broken (Transcript.isDoomed_append hdoomed more) ?_
  rw [hrequests]
  exact (h.feed.inTurn.recordAll (Transcript.coherent_requests _) ds).prefix_flatMap

end

namespace Filter

variable {ρ : Type} [Reader ρ] {max : Nat} {content out : Bytes} {f : Filter} {s : Lookahead ρ}

/-- A filter whose selection is known to succeed, and to be done with the first read. -/
def Awaits (f : Filter) : Prop :=
  f.phase = .awaitingSelection ∧ f.context.protocol = .multiplexed ∧ f.demux.failed = false ∧
    f.demux.feed.hasError = false ∧ f.demux.feed.hasData = false ∧ f.demux.input.buffer = []

/-- A filter in the course of a replay: it has delivered `out` of a content, and goes on. -/
structure Replays (max : Nat) (content out : Bytes) (f : Filter) (s : Lookahead ρ) : Prop where
  sound : f.Sound (Lookahead.Serves content) max out s
  aborted : f.context.aborted = false
  unended : f.Unended
  phase : f.phase = .active ∨ f.Awaits

theorem Replays.undisturbed (h : f.Replays max content out s) : f.isDisturbed s = false := by
  obtain ⟨taken, -, hserves, -⟩ := h.sound.traces
  have haborted : Source.aborted s = false := hserves.aborted
  rw [isDisturbed, h.aborted, haborted]
  rfl

/-- Selection succeeds, or all of the content has been delivered. -/
theorem Replays.approach (h : f.Replays max content out s) (r : ReadRequest) :
    (f.approach s).1.phase = .active ∧
        (f.approach s).1.Replays max content out (f.approach s).2 ∨
      (f.read r s).reply = .ok (Reply.failed .eof) ∧ Replayed max content out .eof := by
  rcases h.phase with hp | ⟨hp, hm, hfailed, herr, hdata, hbuffer⟩
  · left
    rw [approach_of_ne (by simp [hp])]
    exact ⟨hp, h⟩
  · obtain ⟨taken, htells, hserves, hlast⟩ := h.sound.traces
    obtain ⟨-, hnegotiated, hstatus⟩ := Lookahead.read_probe_of_holds hserves
    have hnote : f.note (Source.read probe s).1 = f := by simp [note, hnegotiated]
    rcases hstatus with hok | ⟨heof, hall⟩
    · left
      have happroach : f.approach s = ({ f with phase := .active }, (Source.read probe s).2) := by
        simp [Filter.approach, hp, hok, hnote, select, hm]
      have hsound := h.sound.approach Lookahead.probeKeeps_serves
      have hunended := h.unended.approach s
      rw [happroach] at hsound hunended ⊢
      exact ⟨rfl, hsound, h.aborted, hunended, Or.inl rfl⟩
    · right
      rw [hbuffer, List.append_nil] at hall
      subst hall
      refine ⟨?_, .of_idle htells hfailed herr hdata⟩
      simp [Filter.read, hp, heof, Reply.failed]

variable {r : ReadRequest} {reply : Reply} {f' : Filter}

/-- An answer after which the filter stays active delivers something. -/
theorem Replays.delivers (h : f.Replays max content out s) (hp : f.phase = .active)
    (ha : Answers r { f with demux := (f.demux.pumpUntilReady r.blocking s).1 } reply f')
    (hactive : f'.phase = .active) : reply.status = .ok ∧ reply.output.bytes ≠ [] := by
  have htraces := h.sound.traces
  have hunended := ha.unended (Lookahead.endsBare ρ) Lookahead.keeps_serves htraces
    (h.unended (Or.inr hp))
  obtain ⟨-, hstopped⟩ :=
    Demultiplexer.stopped_pumpUntilReady r.blocking Lookahead.keeps_serves htraces
  obtain ⟨taken, -, -, hlast⟩ := htraces.pumpUntilReady r.blocking Lookahead.keeps_serves
  have hinput := ha.frame.1
  cases ha with
  | broken => simp at hactive
  | more _ hb => exact ⟨rfl, by simpa [Reply.ok] using hb⟩
  | @settled bs _ _ herr hwhy _ _ hs =>
    -- pumping stopped: when there was nothing to deliver, the source had nothing to give either
    have hstarved (hb : bs = []) :
        (f.demux.pumpUntilReady r.blocking s).1.Starved (Lookahead ρ) := by
      rcases hwhy with ⟨-, hne⟩ | ⟨hdata, hfailed, -⟩
      · exact absurd hb hne
      · have herr : (f.demux.pumpUntilReady r.blocking s).1.feed.hasError = false := herr
        have hdata : (f.demux.pumpUntilReady r.blocking s).1.feed.hasData = false := hdata
        have hfailed : (f.demux.pumpUntilReady r.blocking s).1.failed = false := hfailed
        simpa [herr, hdata, hfailed] using hstopped
    cases hs with
    | buffered hne =>
      refine ⟨rfl, ?_⟩
      rw [Reply.ok, Brigade.bytes_ofBytes]
      exact fun hb => hne (hstarved hb).1
    | well _ _ hb => exact ⟨rfl, by simpa [Reply.ok] using hb⟩
    | waiting _ hok hb =>
      obtain ⟨-, blocking, n, t, hstatus, hnone⟩ := hstarved hb
      have hok : (f.demux.pumpUntilReady r.blocking s).1.input.last = .ok := hok
      exact absurd hnone (Lookahead.bytes_ne_nil_of_ok (hstatus ▸ hok))
    | told _ he =>
      have he : (f.demux.pumpUntilReady r.blocking s).1.input.last = .failed _ := he
      rcases hlast with hok | ⟨heof, -⟩
      · simp [he] at hok
      · exact absurd (hinput.symm ▸ heof) (hunended (Or.inr hactive))
    | ended => simp at hactive

/-- How an answer of an active filter carries a replay on, or ends it. -/
theorem Replays.answers (h : f.Replays max content out s) (hp : f.phase = .active)
    (hr : r.mode = .bytes)
    (ha : Answers r { f with demux := (f.demux.pumpUntilReady r.blocking s).1 } reply f') :
    reply.status = .ok ∧ reply.output.bytes ≠ [] ∧
        f'.Replays max content (out ++ reply.output.bytes)
          (f.demux.pumpUntilReady r.blocking s).2.1 ∨
      ∃ e, reply.status = .failed e ∧
        Replayed max content (out ++ reply.output.bytes) e := by
  have hm : r.mode ≠ .init := by simp [hr]
  have hconsumed : reply.consumed r = reply.output.bytes := by
    simp [Reply.consumed, hr, ReadMode.consumes]
  have hunended := h.unended (Or.inr hp)
  have htraces := h.sound.traces.pumpUntilReady r.blocking Lookahead.keeps_serves
  have hsound := Sound.answers (f := { f with demux := (f.demux.pumpUntilReady r.blocking s).1 })
    htraces hp hm ha
  rw [hconsumed] at hsound
  obtain ⟨hinput, hfailed, hcontext⟩ := ha.frame
  rcases ha.phase hp with hactive | ⟨hg, rfl⟩ | ⟨hexhausted, heof⟩
  · obtain ⟨hok, hb⟩ := h.delivers hp ha hactive
    refine Or.inl ⟨hok, hb, hsound, ?_, ?_, Or.inl hactive⟩
    · rw [hcontext]
      exact h.aborted
    · exact ha.unended (Lookahead.endsBare ρ) Lookahead.keeps_serves h.sound.traces hunended
  · refine Or.inr ⟨.general, rfl, ?_⟩
    obtain ⟨taken, htells, ⟨⟨rest, hcontent, -⟩, -⟩, -⟩ := htraces
    rw [bytes_abortReply, List.append_nil, hcontent, List.append_assoc, List.append_assoc]
    exact .of_failure htells (ha.of_aborted hp hg) _
  · refine Or.inr ⟨.eof, heof, ?_⟩
    obtain ⟨taken, htells, hholds, hlast⟩ := hsound.traces
    have hdone := hsound.done hexhausted
    have hpumped : (f.demux.pumpUntilReady r.blocking s).1.input.last = .failed .eof := by
      have hlast := hdone.last
      rw [hinput] at hlast
      exact hlast
    have hidle := Demultiplexer.idle_of_last_eq_eof (Lookahead.endsBare ρ)
      Lookahead.keeps_serves h.sound.traces hunended hpumped
    have hall : taken = content := by
      have hall := (hlast.resolve_left (by simp [hdone.last])).2
      rwa [hdone.buffer, List.append_nil] at hall
    subst hall
    exact .of_idle htells (hfailed.trans hidle.1) hdone.hasError hdone.hasData

/-- A read of bytes in the course of a replay delivers something, or ends the replay. -/
theorem Replays.read (h : f.Replays max content out s) (hr : r.mode = .bytes) :
    ∃ reply, (f.read r s).reply = .ok reply ∧
      (reply.status = .ok ∧ reply.output.bytes ≠ [] ∧
          (f.read r s).filter.Replays max content (out ++ reply.output.bytes) (f.read r s).source ∨
        ∃ e, reply.status = .failed e ∧
          Replayed max content (out ++ reply.output.bytes) e) := by
  rcases h.approach r with ⟨hp, hreplays⟩ | ⟨hreply, hreplayed⟩
  · obtain ⟨reply, hreply, hh⟩ := handles_read (r := r) (f := f) (s := s)
      (by simp [answering, hp])
    refine ⟨reply, hreply, ?_⟩
    obtain ⟨ha, hsource⟩ := hh.answers hp hreplays.undisturbed (by simp [hr])
    rw [hsource]
    exact hreplays.answers hp hr ha
  · refine ⟨_, hreply, Or.inr ⟨.eof, rfl, ?_⟩⟩
    have hnone : (Reply.failed .eof).output.bytes = [] := rfl
    rw [hnone, List.append_nil]
    exact hreplayed

theorem Replays.of_reply (h : f.Replays max content out s) (hr : r.mode = .bytes)
    (hreply : (f.read r s).reply = .ok reply) :
    match reply.status with
    | .ok => reply.output.bytes ≠ [] ∧
        (f.read r s).filter.Replays max content (out ++ reply.output.bytes) (f.read r s).source
    | .failed e => Replayed max content (out ++ reply.output.bytes) e := by
  obtain ⟨reply', hreply', hcases⟩ := h.read hr
  rw [hreply, Except.ok.injEq] at hreply'
  subst hreply'
  rcases hcases with ⟨hok, hgoes⟩ | ⟨e, hfailed, hends⟩
  · rw [hok]
    exact hgoes
  · rw [hfailed]
    exact hends

/-- A replay prints what its content says and ends as its content does. -/
theorem Replays.readToEnd (limit : Nat) (h : f.Replays max content out s) :
    ∃ e, (f.readToEnd limit s).ending = .ok e ∧
      Replayed max content (out ++ (f.readToEnd limit s).output.flatten) e := by
  -- each read that delivers something carries the invariant on; all others end the loop
  fun_induction Filter.readToEnd limit f s generalizing out with
  | case1 f s result v =>
    rename_i hv
    obtain ⟨reply, hreply, -⟩ := h.read (r := ⟨.bytes, .block, limit⟩) rfl
    rw [hv] at hreply
    nomatch hreply
  | case2 f s result reply hreply stop
  | case3 f s result reply hreply stop
  | case4 f s result reply hreply stop =>
    rename_i hstatus
    have hends := h.of_reply rfl hreply
    rw [hstatus] at hends
    exact ⟨_, rfl, by simpa [stop] using hends⟩
  | case5 f s result reply hreply stop hstatus =>
    rename_i hnone
    have hgoes := h.of_reply rfl hreply
    rw [hstatus] at hgoes
    exact absurd hnone hgoes.1
  | case6 f s result reply hreply hstatus hsome rest =>
    rename_i ih
    have hgoes := h.of_reply rfl hreply
    rw [hstatus] at hgoes
    obtain ⟨e, hending, hends⟩ := ih hgoes.2
    refine ⟨e, hending, ?_⟩
    rw [List.append_assoc] at hends
    exact hends
  | case7 f s result reply hreply stop hstatus
  | case8 f s result reply hreply hstatus =>
    have hends := h.of_reply rfl hreply
    rw [hstatus] at hends
    nomatch hends

/-- A new filter is about to replay what a reader gives. -/
theorem replays_ofConfig (c : FilterConfig) {reader : ρ} (h : Reader.Gives reader content) :
    (ofConfig DemuxCommand.context c).Replays c.maxPayloadSize content []
      ({ reader } : Lookahead ρ) :=
  { sound := sound_ofConfig _ c ⟨⟨⟨content, rfl, h, nofun⟩, rfl⟩, Or.inl rfl⟩
    aborted := rfl
    unended := fun _ => nofun
    phase := Or.inr ⟨rfl, rfl, rfl, rfl, rfl, rfl⟩ }

end Filter

/-- Two replays of one content end alike, and print the same when they print all of it. -/
theorem Replayed.agree {max : Nat} {content out out' : Bytes} {e e' : ReadError}
    (h : Replayed max content out e) (h' : Replayed max content out' e') :
    e = e' ∧ (e = .eof → out = out') := by
  cases h with
  | whole hdoomed hout =>
    cases h' with
    | whole _ hout' => exact ⟨rfl, fun _ => hout.trans hout'.symm⟩
    | broken hdoomed' => simp [hdoomed] at hdoomed'
  | broken hdoomed =>
    cases h' with
    | whole hdoomed' => simp [hdoomed] at hdoomed'
    | broken => exact ⟨rfl, nofun⟩

namespace DemuxCommand

variable {ρ τ : Type} [Reader ρ] [Reader τ] {content : Bytes}

/-- A replay with settings that are in order prints what its content says and ends as it does. -/
theorem replayed_replay {c : FilterConfig} (hv : c.validate = .ok ()) (readSize : Nat)
    {reader : ρ} (h : Reader.Gives reader content) :
    ∃ e, (replay c readSize reader).failure = CommandFailure.ofRead? "demux" e ∧
      Replayed c.maxPayloadSize content (replay c readSize reader).output e := by
  have hcreate : Filter.create context c = .ok (Filter.ofConfig context c) := by
    simp only [Filter.create, hv]
    rfl
  have hreplay : replay c readSize reader =
      { output := (deliver readSize (Filter.ofConfig context c)
          ({ reader } : Lookahead ρ)).output.flatten
        failure := failureOf? (deliver readSize (Filter.ofConfig context c)
          ({ reader } : Lookahead ρ)).ending } := by
    simp [replay, hcreate]
  obtain ⟨e, hending, hreplayed⟩ := (Filter.replays_ofConfig c h).readToEnd readSize
  rw [hreplay]
  refine ⟨e, ?_, hreplayed⟩
  have hending : (deliver readSize (Filter.ofConfig context c)
      ({ reader } : Lookahead ρ)).ending = .ok e := hending
  rw [hending]
  rfl

/-- Of the numbers of a configuration, a chunk size is only required not to be zero. -/
theorem validate_chunk {n m : Nat} (hn : n ≠ 0) (hm : m ≠ 0) (c : FilterConfig) :
    { c with readChunkSize := n }.validate = { c with readChunkSize := m }.validate := by
  simp [FilterConfig.validate, hn, hm]

/-- A configuration that is not in order is a matter of usage. -/
theorem code_of_validate_error {c : FilterConfig} {e : FilterError} (h : c.validate = .error e)
    (about : String) : (CommandFailure.ofFilter about e).code = CommandFailure.usage := by
  unfold FilterConfig.validate at h
  split at h
  · cases h
    rfl
  · split at h
    · cases h
      rfl
    · split at h
      · cases h
        rfl
      · split at h
        · cases h
        · cases h
          rfl

/--
What a replay prints and how it ends does not depend on how the content is cut, neither by the
reader nor by the settings. Replays end alike; one prints what the other prints and perhaps more,
and nothing more when they succeed. They fail only because the settings or the content make no
sense.
-/
theorem replay_eq_of_content (c : FilterConfig) {chunk chunk' : Nat} (size size' : Nat)
    (hc : 1 ≤ chunk) (hc' : 1 ≤ chunk') {reader : ρ} {reader' : τ}
    (h : Reader.Gives reader content) (h' : Reader.Gives reader' content) :
    let one := replay { c with readChunkSize := chunk } size reader
    let other := replay { c with readChunkSize := chunk' } size' reader'
    one.failure = other.failure ∧
      (one.output <+: other.output ∨ other.output <+: one.output) ∧
      (one.failure = none → one.output = other.output) ∧
      ∀ f, one.failure = some f →
        f.code = CommandFailure.usage ∨ f.code = CommandFailure.dataInvalid := by
  intro one other
  have hvalid := validate_chunk (n := chunk) (m := chunk') (by omega) (by omega) c
  cases hv : { c with readChunkSize := chunk }.validate with
  | error e =>
    have hone : one = .failed (CommandFailure.ofFilter "invalid filter config" e) := by
      simp [one, replay, Filter.create, hv, bind, Except.bind]
    have hother : other = .failed (CommandFailure.ofFilter "invalid filter config" e) := by
      simp [other, replay, Filter.create, hvalid ▸ hv, bind, Except.bind]
    rw [hone, hother]
    refine ⟨rfl, Or.inl List.prefix_rfl, fun _ => rfl, ?_⟩
    rintro f ⟨rfl⟩
    exact Or.inl (code_of_validate_error hv _)
  | ok =>
    obtain ⟨e, hfailure, hreplayed⟩ := replayed_replay hv size h
    obtain ⟨e', hfailure', hreplayed'⟩ := replayed_replay (hvalid ▸ hv) size' h'
    obtain ⟨rfl, hwhole⟩ := hreplayed.agree hreplayed'
    refine ⟨hfailure.trans hfailure'.symm, ?_, ?_, ?_⟩
    · exact List.prefix_or_prefix_of_prefix hreplayed.prefix_flatMap hreplayed'.prefix_flatMap
    · intro hnone
      refine hwhole ?_
      cases hreplayed with
      | whole => rfl
      | broken => simp [one, hfailure, CommandFailure.ofRead?] at hnone
    · intro f hf
      have hf : CommandFailure.ofRead? "demux" e = some f := hfailure.symm.trans hf
      cases hreplayed with
      | whole => simp [CommandFailure.ofRead?] at hf
      | broken =>
        simp only [CommandFailure.ofRead?, Option.some.injEq] at hf
        exact Or.inr (hf ▸ rfl)

/-- The same requests from a file and in pieces, byte by byte and in long chunks. -/
theorem replay_file_eq_pieces :
    let first := (Frame.opening 1 "/a" 1).bytes
    let second := (Frame.opening 3 "/b" 0).bytes
    let one := replay { readChunkSize := 1 } 3 ({ unread := first ++ second } : OpenFile)
    let other := replay { readChunkSize := 8192 } 0
      (⟨[.bytes first, .bytes second]⟩ : ScriptedReader)
    one.failure = other.failure ∧
      (one.output <+: other.output ∨ other.output <+: one.output) ∧
      (one.failure = none → one.output = other.output) ∧
      ∀ f, one.failure = some f →
        f.code = CommandFailure.usage ∨ f.code = CommandFailure.dataInvalid := by
  intro first second one other
  have hpieces : Reader.Gives (⟨[.bytes first, .bytes second]⟩ : ScriptedReader)
      (first ++ second) := by
    have hne : ∀ piece ∈ [first, second], piece ≠ [] := by decide +kernel
    simpa using ScriptedReader.gives hne
  exact replay_eq_of_content {} 3 0 (by decide) (by decide) (OpenFile.gives _) hpieces

end DemuxCommand
end RequestFeed
