import RequestFeed.Proofs.Filter.Session
import RequestFeed.Read.Lookahead
/-!
# The end of the input

A filter says that the input has ended when the last read of its source said so and nothing is
left to deliver. That is final unless the bytes that came with the end brought about a failure
that nobody has been told of yet.

*Results.*
* `Session.ended_of_exhausted`: an exhausted filter says that the input has ended from then on.
* `Session.ended_iff`: whether the end of the input is final is decided by the requests of the
  connection. Over a source that gives no bytes together with its end, it always is.
* `Lookahead.endsBare`: sources over readers are such sources.
-/

namespace RequestFeed

/-- A source over a reader ends without bytes. -/
theorem Lookahead.endsBare (ρ : Type) [Reader ρ] : Source.EndsBare (Lookahead ρ) := by
  intro blocking n s
  have hread : Source.read ⟨.bytes, blocking, n⟩ s = withSome n (serve n) s := rfl
  rw [hread]
  unfold withSome
  split
  · intro he
    simp [serve, Reply.ok] at he
  · split
    · intro he
      simp [serve, Reply.ok] at he
    · intro _
      rfl
    · intro _
      rfl

section

variable {σ : Type} [Source σ]

theorem Recorded.endsBare (h : Source.EndsBare σ) : Source.EndsBare (Recorded σ) :=
  fun blocking n s => h blocking n s.source

namespace Filter

/-- A filter that may still pump has not seen the end of the input. -/
def Unended (f : Filter) : Prop :=
  f.phase = .awaitingSelection ∨ f.phase = .active → f.demux.input.last ≠ .failed .eof

variable {r : ReadRequest} {f f' : Filter} {s s' : σ} {reply : Reply}
  {H : Bytes → Status → σ → Prop} {max : Nat} {out : Bytes}

/-- When the end of the input comes without bytes, the read that finds it exhausts the filter. -/
theorem Answers.unended {blocking : Blocking} (hb : Source.EndsBare σ) (hH : Source.Keeps H)
    (ht : f.demux.Traces H max out s) (hl : f.demux.input.last ≠ .failed .eof)
    (h : Answers r { f with demux := (f.demux.pumpUntilReady blocking s).1 } reply f') :
    f'.Unended := by
  by_cases hlast : (f.demux.pumpUntilReady blocking s).1.input.last = .failed .eof
  · obtain ⟨hfailed, herr, hdata⟩ := Demultiplexer.idle_of_last_eq_eof hb hH ht hl hlast
    obtain ⟨-, hstopped⟩ := Demultiplexer.stopped_pumpUntilReady blocking hH ht
    have hbuffer : (f.demux.pumpUntilReady blocking s).1.input.buffer = [] := by
      rcases hstopped with h | h | h | h
      · simp [herr] at h
      · simp [hdata] at h
      · simp [hfailed] at h
      · exact h.1
    cases h with
    | broken hwhy => simp [herr, hfailed] at hwhy
    | more hd => simp [hdata] at hd
    | settled _ _ _ _ hs =>
      have hdrained := (Feed.drain_of_idle r herr hdata).2
      have hexhausted := (hs.of_last_eq_eof hbuffer hlast).2 (by simp [drained, hdrained, herr])
      intro hp
      simp [hexhausted] at hp
  · intro _
    rw [h.frame.1]
    exact hlast

theorem Handles.unended (hb : Source.EndsBare σ) (hH : Source.Keeps H)
    (hs : f.Sound H max out s) (hf : f.Unended) (h : Handles r f s reply f' s') :
    f'.Unended := by
  cases h with
  | served hp _ _ ha => exact ha.unended hb hH hs.traces (hf (Or.inr hp))
  | gone =>
    intro hp
    simp at hp
  | unselected | stopped | asked | ended => exact hf

/-- A read of an active filter says that the input has ended only as an answer does. -/
theorem Handles.atEnd (h : Handles r f s reply f' s') (hp : f.phase = .active)
    (he : reply.status = .failed .eof) : f'.AtEnd := by
  cases h with
  | unselected _ hp' | stopped hp' | ended hp' => simp [hp] at hp'
  | gone => simp [abortReply] at he
  | asked => simp [Reply.ok] at he
  | served _ _ _ ha => exact ha.atEnd hp he

/-- An exhausted filter stays so until it finds that the connection is gone. -/
theorem Handles.phase_of_exhausted (h : Handles r f s reply f' s')
    (hp : f.phase = .exhausted ∨ f.phase = .aborted .connAborted) :
    f'.phase = .exhausted ∨ f'.phase = .aborted .connAborted := by
  cases h with
  | gone => exact Or.inr rfl
  | served ha => rcases hp with hp | hp <;> simp [hp] at ha
  | unselected | stopped | asked | ended => exact hp

/-- An exhausted filter says that the input has ended, and leaves its source alone. -/
theorem Handles.of_exhausted (h : Handles r f s reply f' s') (hp : f.phase = .exhausted)
    (hd : f.isDisturbed s = false) (hr : r.mode ≠ .init) : reply = Reply.failed .eof ∧ s' = s := by
  cases h with
  | ended => exact ⟨rfl, rfl⟩
  | gone _ hd' => simp [hd] at hd'
  | asked _ _ hr' => exact absurd hr' hr
  | unselected _ hp' | stopped hp' | served hp' => simp [hp] at hp'

/-- A failure that is next in turn is reported by the next read. -/
theorem Handles.reports (h : Handles r f s reply f' s') (hp : f.phase = .active)
    (hd : f.isDisturbed s = false) (hr : r.mode ≠ .init)
    (hwhy : f.demux.feed.hasError = true ∨ f.demux.failed = true ∧ f.demux.feed.hasData = false) :
    reply = abortReply .general ∧ f'.phase = .aborted .general := by
  have ha := (h.answers hp hd hr).1
  have hpumped : (f.demux.pumpUntilReady r.blocking s).1 = f.demux.prune := by
    rcases hwhy with herr | ⟨hfailed, -⟩
    · exact (Demultiplexer.pumpUntilReady_of_ready _ _ (by simp [herr])).1
    · exact (Demultiplexer.pumpUntilReady_of_failed _ _ hfailed).1
  rw [hpumped] at ha
  have hpruned (hdata : f.demux.prune.feed.hasData = true)
      (herr : f.demux.prune.feed.hasError = false) : False := by
    simp only [Demultiplexer.prune, Feed.hasData_prune, Feed.hasError_prune] at hdata herr
    simp [hdata, herr] at hwhy
  cases ha with
  | broken _ => exact ⟨rfl, rfl⟩
  | more hdata _ _ _ =>
    exact (hpruned hdata (Feed.hasError_eq_false_of_hasData hdata)).elim
  | settled herr hbytes _ _ _ =>
    rcases hbytes with ⟨hdata, -⟩ | ⟨-, hfailed, -⟩
    · exact (hpruned hdata herr).elim
    · have hfailed : f.demux.failed = false := hfailed
      have herr : f.demux.prune.feed.hasError = false := herr
      simp only [Demultiplexer.prune, Feed.hasError_prune] at herr
      simp [hfailed, herr] at hwhy

theorem Unended.approach (hf : f.Unended) (s : σ) : (f.approach s).1.Unended := by
  by_cases hp : f.phase = .awaitingSelection
  · intro _
    rw [demux_approach]
    exact hf (Or.inl hp)
  · rw [approach_of_ne hp]
    exact hf

end Filter

namespace Session

variable {t : Session σ} {max : Nat}

theorem unended_step (hb : Source.EndsBare σ) (hs : t.Sound max) (hf : t.filter.Unended)
    (a : Act σ) : (t.step a).filter.Unended := by
  cases a with
  | read r =>
    by_cases hp : (t.step (.read r)).filter.phase = .passThrough
    · intro hphase
      simp [hp] at hphase
    · obtain ⟨reply, -, hh⟩ := Filter.handles_read (r := r) (f := t.filter) (s := t.source)
        fun hpass => hp (Filter.phase_read_of_answering hpass)
      have hsound := (hs (phase_ne_of_step hp)).approach Recorded.probeKeeps_gave
      exact hh.unended (Recorded.endsBare hb) Recorded.keeps_gave hsound (hf.approach t.source)
  | giveUp | agree | move => exact hf

/-- Over a source that ends without bytes, a filter that may still pump has not seen the end. -/
theorem unended_run (hb : Source.EndsBare σ) (hs : t.Sound max) (hf : t.filter.Unended)
    (acts : List (Act σ)) : (t.run acts).filter.Unended := by
  induction acts generalizing t with
  | nil => exact hf
  | cons a acts ih => exact ih (hs.step a) (unended_step hb hs hf a)

/-- The connection has not been found to be gone, and would not be by a read. -/
structure Connected (t : Session σ) : Prop where
  undisturbed : t.filter.isDisturbed t.source = false
  unnoticed : t.filter.phase ≠ .aborted .connAborted

/-- The end of the input is final: no failure waits to be reported, and until the connection is
gone every read is told that the input has ended, delivers nothing, and leaves the source alone. -/
structure Ended (t : Session σ) : Prop where
  exhausted : t.filter.phase = .exhausted
  hasError : t.filter.demux.feed.hasError = false
  stays : ∀ acts, (t.run acts).Connected → ∀ r : ReadRequest, r.mode ≠ .init →
    ((t.run acts).filter.read r (t.run acts).source).reply = .ok (Reply.failed .eof) ∧
      ((t.run acts).filter.read r (t.run acts).source).source = (t.run acts).source

theorem phase_step_of_exhausted
    (h : t.filter.phase = .exhausted ∨ t.filter.phase = .aborted .connAborted) (a : Act σ) :
    (t.step a).filter.phase = .exhausted ∨ (t.step a).filter.phase = .aborted .connAborted := by
  cases a with
  | read r =>
    have hp : t.filter.Demuxes := by rcases h with h | h <;> simp [Filter.Demuxes, h]
    obtain ⟨reply, -, hh⟩ := hp.handles r t.source
    exact hh.phase_of_exhausted h
  | giveUp | agree | move => exact h

theorem phase_run_of_exhausted
    (h : t.filter.phase = .exhausted ∨ t.filter.phase = .aborted .connAborted)
    (acts : List (Act σ)) :
    (t.run acts).filter.phase = .exhausted ∨
      (t.run acts).filter.phase = .aborted .connAborted := by
  induction acts generalizing t with
  | nil => exact h
  | cons a acts ih => exact ih (phase_step_of_exhausted h a)

/-- An exhausted filter says that the input has ended from then on. -/
theorem ended_of_exhausted (h : t.filter.phase = .exhausted)
    (herr : t.filter.demux.feed.hasError = false) : t.Ended where
  exhausted := h
  hasError := herr
  stays := by
    intro acts hc r hr
    have hp : (t.run acts).filter.phase = .exhausted :=
      (phase_run_of_exhausted (Or.inl h) acts).resolve_right hc.unnoticed
    have hdemuxes : (t.run acts).filter.Demuxes := by simp [Filter.Demuxes, hp]
    obtain ⟨reply, hreply, hh⟩ := hdemuxes.handles r (t.run acts).source
    obtain ⟨rfl, hsource⟩ := hh.of_exhausted hp hc.undisturbed hr
    exact ⟨hreply, hsource⟩

omit [Source σ] in
/-- When a filter has said that the input has ended, all that was delivered has been taken. -/
theorem Sound.tells_of_atEnd (h : t.Sound max) (hend : t.filter.AtEnd) :
    t.filter.demux.Tells max t.source.delivered t.consumed := by
  have hp : t.filter.phase ≠ .passThrough := by
    rcases hend.phase with ⟨h, -⟩ | ⟨h, -⟩ <;> simp [h]
  obtain ⟨taken, htells, hgave⟩ := (h hp).traces
  have hgave : t.source.delivered = taken ++ t.filter.demux.input.buffer := hgave
  rw [hend.buffer, List.append_nil] at hgave
  rw [hgave]
  exact htells

/-- A failure that is next in turn is reported by the next read of a session. -/
theorem reply_of_hasError (hp : t.filter.phase = .active)
    (herr : t.filter.demux.feed.hasError = true)
    (hd : t.filter.isDisturbed t.source = false) {r : ReadRequest} (hr : r.mode ≠ .init) :
    (t.filter.read r t.source).reply = .ok (Filter.abortReply .general) := by
  have hdemuxes : t.filter.Demuxes := by simp [Filter.Demuxes, hp]
  obtain ⟨reply, hreply, hh⟩ := hdemuxes.handles r t.source
  rw [hreply, (hh.reports hp hd hr (Or.inl herr)).1]

/--
When an active filter says that the input has ended, that is final exactly when no failed request
is next in turn. A failed one is left to the next read to report. Over a source that gives no
bytes together with its end it does not come to that.
-/
theorem ended_iff (context : ConnectionContext) (c : FilterConfig) (s : σ) (acts : List (Act σ))
    (r : ReadRequest) :
    let t := (start context c s).run acts
    let t' := t.step (.read r)
    let requests := (Transcript.ofBytes c.maxPayloadSize t'.source.delivered).requests
    t.filter.answering t.source = .active → SaysEnd (t.filter.read r t.source).reply →
    (t'.Ended ↔ requests.isBlocked = false) ∧
      (requests.isBlocked = true →
        t'.filter.phase = .active ∧
          (t'.filter.isDisturbed t'.source = false → ∀ again : ReadRequest, again.mode ≠ .init →
            (t'.filter.read again t'.source).reply = .ok (Filter.abortReply .general))) ∧
      (Source.EndsBare σ → t'.Ended) := by
  intro t t' requests hanswering heof
  have ht : t.Sound c.maxPayloadSize := sound_run context c s acts
  obtain ⟨reply, hreply, hh⟩ := Filter.handles_read (r := r) (f := t.filter) (s := t.source)
    (by simp [hanswering])
  rw [hreply] at heof
  have hend : t'.filter.AtEnd := hh.atEnd hanswering heof
  have htells := (ht.step (.read r)).tells_of_atEnd hend
  have hcoherent : requests.Coherent := Transcript.coherent_requests _
  rcases hend.phase with ⟨hexhausted, herr⟩ | ⟨hactive, herr⟩
  · have hended : t'.Ended := ended_of_exhausted hexhausted herr
    have hclear : requests.isBlocked = false :=
      (htells.feed.all_of_idle hcoherent herr hend.hasData).1
    refine ⟨⟨fun _ => hclear, fun _ => hended⟩, ?_, fun _ => hended⟩
    intro hblocked
    rw [hclear] at hblocked
    exact absurd hblocked Bool.false_ne_true
  · have hblocked : requests.isBlocked = true := htells.feed.isBlocked_of_hasError hcoherent herr
    refine ⟨⟨?_, ?_⟩, ?_, ?_⟩
    · intro hended
      rw [hended.hasError] at herr
      exact absurd herr Bool.false_ne_true
    · intro hclear
      rw [hblocked] at hclear
      exact absurd hclear (by decide)
    · exact fun _ => ⟨hactive, fun hd again hr => reply_of_hasError hactive herr hd hr⟩
    · intro hb
      have hfresh : (start context c s).filter.Unended := fun _ => nofun
      have hunended := unended_step hb ht
        (unended_run hb (sound_start context c s) hfresh acts) (.read r)
      exact absurd hend.last (hunended (Or.inr hactive))

end Session

end

namespace Session

/-- A connection that is read from a reader: one request, and a part of another. -/
def fromReader : Session (Lookahead ScriptedReader) :=
  start { protocol := .multiplexed } {}
    { reader := ⟨[.bytes ((Frame.opening 1 "/a" 1).bytes ++ (Frame.opening 3 "/b" 0).bytes)]⟩ }

/-- The end of a connection that is read from a reader is final. -/
theorem fromReader_ended :
    let t := fromReader.run [.read ⟨.exhaustive, .block, 0⟩, .read ⟨.bytes, .block, 0⟩]
    (t.step (.read ⟨.bytes, .block, 0⟩)).Ended := by
  refine (ended_iff _ {} _ _ ⟨.bytes, .block, 0⟩ ?_ ?_).2.2 (Lookahead.endsBare _) <;>
    decide +kernel

/-- Two requests, the second of which is reset, in one piece that is the last. -/
def resetBehind : Session ScriptedSource :=
  start { protocol := .multiplexed } {}
    (.ofBytes
      ((Frame.opening 1 "/a" 1).bytes ++ (Frame.opening 3 "/b" 0).bytes ++
        (Frame.mk .reset 0 3 (Bytes.little 4 2)).bytes)
      (.failed .eof))

/-- The first read says that the input has ended, and the next that it is unusable. -/
theorem resetBehind_not_ended :
    let r : ReadRequest := ⟨.bytes, .block, 0⟩
    resetBehind.filter.answering resetBehind.source = .active ∧
      SaysEnd (resetBehind.filter.read r resetBehind.source).reply ∧
      ((resetBehind.run [.read r, .read r]).filter.phase = .aborted .general) ∧
      ¬ (resetBehind.step (.read r)).Ended := by
  refine ⟨by decide +kernel, by decide +kernel, by decide +kernel, fun h => ?_⟩
  have hphase : (resetBehind.step (.read ⟨.bytes, .block, 0⟩)).filter.phase = .active := by
    decide +kernel
  rw [h.exhausted] at hphase
  exact absurd hphase (by decide)

end Session
end RequestFeed
