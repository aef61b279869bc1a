import RequestFeed.Proofs.Filter.Outcome
/-!
# Soundness of filters

What holds of a filter between reads, as long as it does not pass its connection through.

*Invariant.* `Filter.Sound`: the demultiplexer tells what it has taken and what has been
delivered; a filter is exhausted only when nothing is left to take, to deliver or to report; and
a filter aborts only because its input is unusable or its connection gone.

*Results.*
* `Filter.Answers.atEnd`: what it means that a filter answers that the input has ended.
* `Filter.Sound.answers`: what an active filter answers is delivered.
* `Filter.Sound.read`: a read answers and keeps a filter sound. What it consumes is delivered.
-/

namespace RequestFeed

namespace Demultiplexer

/-- All input has been taken and delivered, and no failure is next in turn. -/
structure Done (d : Demultiplexer) : Prop where
  hasError : d.feed.hasError = false
  hasData : d.feed.hasData = false
  buffer : d.input.buffer = []
  last : d.input.last = .failed .eof

theorem Traces.drain {σ : Type} {H : Bytes → Status → σ → Prop} {max : Nat} {out : Bytes}
    {d : Demultiplexer} {s : σ} {r : ReadRequest} {reply : Reply} (h : d.Traces H max out s)
    (hr : r.mode ≠ .init) (hreply : (d.feed.drain r).reply = .ok reply) :
    Traces H max (out ++ reply.consumed r) { d with feed := (d.feed.drain r).feed } s := by
  obtain ⟨taken, htells, hsource⟩ := h
  refine ⟨taken, ?_, hsource⟩
  exact
    { htells with
      feed := htells.feed.drain (Transcript.coherent_requests _) hr hreply
      tidy := htells.tidy.drain }

end Demultiplexer

namespace Filter

variable {σ : Type} {r : ReadRequest} {f f' : Filter} {bs : Bytes} {reply : Reply}

/-- Settling decides on the status and on the phase, and on nothing else. -/
theorem Settles.frame (h : Settles f bs reply f') :
    reply.output.bytes = bs ∧ f'.demux = f.demux ∧ f'.context = f.context := by
  cases h with
  | waiting _ _ hb => exact ⟨by rw [hb]; rfl, rfl, rfl⟩
  | buffered | well | told | ended => exact ⟨Brigade.bytes_ofBytes bs, rfl, rfl⟩

theorem Settles.consumed (h : Settles f bs reply f') (r : ReadRequest) :
    reply.consumed r = (Reply.ok bs).consumed r := by
  simp [Reply.consumed, h.frame.1, Reply.ok]

/-- When the last read found the end of the input and all its bytes are used up, the consumer is
told, and the filter is exhausted unless a failure is next in turn. -/
theorem Settles.of_last_eq_eof (h : Settles f bs reply f') (hbuffer : f.demux.input.buffer = [])
    (hlast : f.demux.input.last = .failed .eof) :
    reply.status = .failed .eof ∧ (f.demux.feed.hasError = false → f'.phase = .exhausted) := by
  cases h with
  | buffered hne => exact absurd hbuffer hne
  | well _ hok | waiting _ hok => simp [hlast] at hok
  | told _ he herr =>
    rw [hlast, Status.failed.injEq] at he
    subst he
    exact ⟨rfl, fun hclear => by simp [herr rfl] at hclear⟩
  | ended => exact ⟨rfl, fun _ => rfl⟩

/-- An answer leaves everything alone but the feed and the phase. -/
theorem Answers.frame (h : Answers r f reply f') :
    f'.demux.input = f.demux.input ∧ f'.demux.failed = f.demux.failed ∧ f'.context = f.context := by
  cases h with
  | broken _ => exact ⟨rfl, rfl, rfl⟩
  | more _ _ _ _ => exact ⟨rfl, rfl, rfl⟩
  | settled _ _ _ _ hs =>
    obtain ⟨-, hdemux, hcontext⟩ := hs.frame
    rw [hdemux, hcontext]
    exact ⟨rfl, rfl, rfl⟩

/-- What it means that an active filter has answered that the input has ended: all that was read of
it has been taken and delivered, and either the filter is exhausted or a failure is next in turn. -/
structure AtEnd (f : Filter) : Prop where
  buffer : f.demux.input.buffer = []
  last : f.demux.input.last = .failed .eof
  hasData : f.demux.feed.hasData = false
  phase : f.phase = .exhausted ∧ f.demux.feed.hasError = false ∨
    f.phase = .active ∧ f.demux.feed.hasError = true

theorem Answers.atEnd (h : Answers r f reply f') (hp : f.phase = .active)
    (he : reply.status = .failed .eof) : f'.AtEnd := by
  cases h with
  | broken _ => simp [abortReply] at he
  | more _ _ _ _ => simp [Reply.ok] at he
  | settled _ _ _ hmore hs =>
    cases hs with
    | buffered | well => simp [Reply.ok] at he
    | waiting => simp [Reply.failed] at he
    | told hbuffer hlast herr =>
      simp only [Status.failed.injEq] at he
      subst he
      exact ⟨hbuffer, hlast, hmore, Or.inr ⟨hp, herr rfl⟩⟩
    | ended hbuffer hlast herr => exact ⟨hbuffer, hlast, hmore, Or.inl ⟨rfl, herr⟩⟩

/-- An active filter stays active, unless the input is unusable or has ended. -/
theorem Answers.phase (h : Answers r f reply f') (hp : f.phase = .active) :
    f'.phase = .active ∨
      f'.phase = .aborted .general ∧ reply = abortReply .general ∨
      f'.phase = .exhausted ∧ reply.status = .failed .eof := by
  cases h with
  | broken _ => exact Or.inr (Or.inl ⟨rfl, rfl⟩)
  | more _ _ _ _ => exact Or.inl hp
  | settled _ _ _ _ hs =>
    cases hs with
    | ended => exact Or.inr (Or.inr ⟨rfl, rfl⟩)
    | buffered | well | waiting | told => exact Or.inl hp

/-- An active filter aborts only because its input is unusable. -/
theorem Answers.of_aborted (h : Answers r f reply f') (hp : f.phase = .active)
    (hg : f'.phase = .aborted .general) :
    f.demux.feed.hasError = true ∨ f.demux.failed = true := by
  cases h with
  | broken hwhy =>
    rcases hwhy with herr | ⟨hfailed, -⟩
    · exact Or.inl herr
    · exact Or.inr hfailed
  | more _ _ _ _ => simp [drained, hp] at hg
  | settled _ _ _ _ hs => cases hs <;> simp [drained, hp] at hg

/-- What holds of a filter between reads. -/
structure Sound (H : Bytes → Status → σ → Prop) (max : Nat) (out : Bytes) (f : Filter)
    (s : σ) : Prop where
  traces : f.demux.Traces H max out s
  done : f.phase = .exhausted → f.demux.Done
  cause : ∀ cause, f.phase = .aborted cause → cause = .general ∨ cause = .connAborted

variable {H : Bytes → Status → σ → Prop} {max : Nat} {out : Bytes} {s : σ}

/-- An answer of an active filter is delivered. -/
theorem Sound.answers (h : f.demux.Traces H max out s) (hp : f.phase = .active)
    (hr : r.mode ≠ .init) (ha : Answers r f reply f') :
    f'.Sound H max (out ++ reply.consumed r) s := by
  cases ha with
  | broken _ =>
    rw [Reply.consumed_of_bytes_eq_nil rfl, List.append_nil]
    exact { traces := h.prune, done := nofun, cause := by simp }
  | more _ _ hreply _ =>
    exact
      { traces := h.drain hr hreply
        done := fun he => by simp [drained, hp] at he
        cause := by simp [drained, hp] }
  | settled _ _ hreply hmore hs =>
    have htraces : f'.demux.Traces H max (out ++ reply.consumed r) s := by
      rw [hs.frame.2.1, hs.consumed]
      exact h.drain hr hreply
    cases hs with
    | ended hbuffer hlast herr =>
      exact
        { traces := htraces
          done := fun _ =>
            { hasError := herr, hasData := hmore, buffer := hbuffer, last := hlast }
          cause := by simp }
    | buffered | well | waiting | told =>
      exact
        { traces := htraces
          done := fun he => by simp [drained, hp] at he
          cause := by simp [drained, hp] }

variable [Source σ]

/-- However a read is handled, it keeps a filter sound, and what it consumes is delivered. -/
theorem Sound.handles {s' : σ} (hH : Source.Keeps H) (h : f.Sound H max out s)
    (hh : Handles r f s reply f' s') : f'.Sound H max (out ++ reply.consumed r) s' := by
  cases hh with
  | served hp _ hr ha =>
    have htraces := h.traces.pumpUntilReady r.blocking hH
    exact Sound.answers (f := { f with demux := (f.demux.pumpUntilReady r.blocking s).1 })
      htraces hp hr ha
  | gone =>
    rw [Reply.consumed_of_bytes_eq_nil rfl, List.append_nil]
    exact { traces := h.traces, done := nofun, cause := by simp }
  | unselected | stopped | asked | ended =>
    rw [Reply.consumed_of_bytes_eq_nil rfl, List.append_nil]
    exact h

/-- A property of a source and of what it has delivered is kept when a filter finds out which
protocol was selected. -/
def ProbeKeeps (H : Bytes → Status → σ → Prop) : Prop :=
  ∀ (delivered : Bytes) (last : Status) (s : σ),
    H delivered last s → H delivered last (Source.read probe s).2

theorem demux_approach (f : Filter) (s : σ) : (f.approach s).1.demux = f.demux := by
  unfold approach
  split
  · split
    · exact demux_note _ f
    · rw [demux_select, demux_note]
  · rfl

/-- A filter that awaits selection goes on to wait, to pass through, or to be active. -/
theorem phase_approach (h : f.phase = .awaitingSelection) (s : σ) :
    f.answering s = .awaitingSelection ∨ f.answering s = .passThrough ∨
      f.answering s = .active := by
  unfold answering approach
  rw [if_pos h]
  split
  · exact Or.inl (by rw [phase_note, h])
  · right
    unfold select
    split <;> simp

theorem Sound.approach (hP : ProbeKeeps H) (h : f.Sound H max out s) :
    (f.approach s).1.Sound H max out (f.approach s).2 := by
  by_cases hp : f.phase = .awaitingSelection
  · have htraces : (f.approach s).1.demux.Traces H max out (f.approach s).2 := by
      rw [demux_approach]
      obtain ⟨taken, htells, hsource⟩ := h.traces
      refine ⟨taken, htells, ?_⟩
      have := hP _ _ _ hsource
      unfold Filter.approach
      rw [if_pos hp]
      split <;> exact this
    have hphase := phase_approach hp s
    unfold answering at hphase
    exact
      { traces := htraces
        done := fun he => by simp [he] at hphase
        cause := fun _ he => by simp [he] at hphase }
  · rw [approach_of_ne hp]
    exact h

/-- A read answers and keeps a filter sound, and what it consumes is delivered. -/
theorem Sound.read (hH : Source.Keeps H) (hP : ProbeKeeps H) (h : f.Sound H max out s)
    (hp : (f.read r s).filter.phase ≠ .passThrough) :
    ∃ reply, (f.read r s).reply = .ok reply ∧
      (f.read r s).filter.Sound H max (out ++ reply.consumed r) (f.read r s).source := by
  obtain ⟨reply, hreply, hh⟩ := handles_read fun hpass => hp (phase_read_of_answering hpass)
  exact ⟨reply, hreply, (h.approach hP).handles hH hh⟩

/-- A filter that passes its connection through goes on to do so. -/
theorem phase_read_of_passThrough (h : f.phase = .passThrough) :
    (f.read r s).filter.phase = .passThrough := by
  refine phase_read_of_answering ?_
  unfold answering
  rw [approach_of_ne (by simp [h])]
  exact h

omit [Source σ] in
/-- A new filter is sound when nothing has been delivered yet. -/
theorem sound_ofConfig (context : ConnectionContext) (c : FilterConfig) (h : H [] .ok s) :
    (ofConfig context c).Sound H c.maxPayloadSize [] s :=
  { traces := ⟨[], Demultiplexer.tells_create _ _, h⟩
    done := nofun
    cause := by simp [ofConfig] }

end Filter
end RequestFeed
