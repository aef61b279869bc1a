import RequestFeed.Proofs.Filter.Ending
/-!
# Failures of the input

When the bytes of a connection make no sense, the input has failed. What was delivered to complete
requests before may still be read; then the consumer must be told that the input is unusable, and
not that it has ended.

*Results.*
* `Session.Broken.step`: an input that has failed stays as it is, and the source is left alone.
* `Session.Broken.willTell_run` and `Session.Broken.ends`: which failures the consumer is told of,
  and which are taken for the end of the input.
* `Session.failureTold_iff`: a failure is swallowed exactly when the last read of the source said
  that the input had ended, all its bytes have been taken, and the failure could not be reported
  at once.
-/

namespace RequestFeed

section

variable {σ : Type} [Source σ]

namespace Filter

variable {r : ReadRequest} {f f' : Filter} {s s' : σ} {reply : Reply}
  {H : Bytes → Status → σ → Prop} {max : Nat} {out : Bytes}

omit [Source σ] in
theorem Answers.demuxes (h : Answers r f reply f') (hp : f.phase = .active) : f'.Demuxes := by
  unfold Demuxes
  rcases h.phase hp with h | ⟨h, -⟩ | ⟨h, -⟩ <;> simp [h]

/-- A filter goes on to demultiplex its connection. -/
theorem Handles.demuxes (h : Handles r f s reply f' s') (hf : f.Demuxes) : f'.Demuxes := by
  cases h with
  | gone => simp [Demuxes]
  | served hp _ _ ha => exact ha.demuxes hp
  | unselected | stopped | asked | ended => exact hf

/-- After the input has failed, reads leave the source and the input alone. -/
theorem Handles.of_failed (h : Handles r f s reply f' s') (hf : f.demux.failed = true) :
    s' = s ∧ f'.demux.input = f.demux.input ∧ f'.demux.failed = true := by
  cases h with
  | served _ _ _ ha =>
    obtain ⟨hd, hs⟩ := Demultiplexer.pumpUntilReady_of_failed r.blocking s hf
    obtain ⟨hinput, hfailed, -⟩ := ha.frame
    simp only [hd] at hinput hfailed
    exact ⟨hs, hinput, hfailed.trans hf⟩
  | unselected | stopped | gone | asked | ended => exact ⟨rfl, rfl, hf⟩

omit [Source σ] in
/-- After the input has failed, only bytes of complete requests are delivered. -/
theorem Answers.leading (h : Answers r f reply f') (hr : r.mode ≠ .init)
    (hf : f.demux.failed = true) (ht : f.demux.Traces H max out s) :
    reply.consumed r = [] ∨
      ∃ taken, H (taken ++ f'.demux.input.buffer) f'.demux.input.last s ∧
        out ++ reply.consumed r <+:
          (Transcript.ofBytes max taken).requests.leading.flatMap Projection.written := by
  obtain ⟨taken, htells, hsource⟩ := ht
  have hcoherent := Transcript.coherent_requests (Transcript.ofBytes max taken)
  -- the failure has finished all requests, so one that has not failed is complete
  have hfinished : (Transcript.ofBytes max taken).requests.UnfinishedIn [] := by
    have hfailure : (Transcript.ofBytes max taken).failure.isSome = true := htells.failed ▸ hf
    obtain ⟨e, he⟩ := Option.isSome_iff_exists.mp hfailure
    have hlive : (Transcript.ofBytes max taken).router.live = [] := Transcript.live_of_failure he
    rw [← hlive]
    exact Transcript.unfinishedIn_ofBytes max taken
  rw [h.frame.1]
  cases h with
  | broken _ => exact Or.inl (Reply.consumed_of_bytes_eq_nil rfl r)
  | more hdata _ hreply _ =>
    exact Or.inr ⟨taken, hsource, htells.feed.leading hcoherent hfinished hdata hr hreply⟩
  | settled _ hwhy hreply _ hs =>
    rcases hwhy with ⟨hdata, -⟩ | ⟨-, hfailed, -⟩
    · rw [hs.consumed]
      exact Or.inr ⟨taken, hsource, htells.feed.leading hcoherent hfinished hdata hr hreply⟩
    · rw [hf] at hfailed
      exact absurd hfailed (by decide)

/-- After the input has failed, reads deliver only bytes of complete requests. -/
theorem Handles.leading (h : Handles r f s reply f' s') (hH : Source.Keeps H)
    (hf : f.demux.failed = true) (ht : f.demux.Traces H max out s) :
    reply.consumed r = [] ∨
      ∃ taken, H (taken ++ f'.demux.input.buffer) f'.demux.input.last s' ∧
        out ++ reply.consumed r <+:
          (Transcript.ofBytes max taken).requests.leading.flatMap Projection.written := by
  cases h with
  | served _ _ hr ha =>
    refine ha.leading hr ?_ (ht.pumpUntilReady r.blocking hH)
    rw [(Demultiplexer.pumpUntilReady_of_failed _ _ hf).1]
    exact hf
  | unselected | stopped | gone | asked | ended =>
    exact Or.inl (Reply.consumed_of_bytes_eq_nil rfl r)

omit [Source σ] in
/-- When the last read said that the input had ended, an answer says so too, unless there is more to
deliver first or the input is unusable. -/
theorem Answers.of_last_eq_eof (h : Answers r f reply f') (hp : f.phase = .active)
    (hlast : f.demux.input.last = .failed .eof) (hbuffer : f.demux.input.buffer = []) :
    f'.phase = .aborted .general ∨ reply.status = .failed .eof ∨
      f'.phase = .active ∧ f'.demux.feed.hasData = true := by
  cases h with
  | broken _ => exact Or.inl rfl
  | more _ _ _ hmore => exact Or.inr (Or.inr ⟨hp, hmore⟩)
  | settled _ _ _ _ hs => exact Or.inr (Or.inl (hs.of_last_eq_eof hbuffer hlast).1)

theorem Handles.of_aborted {cause : ReadError} (h : Handles r f s reply f' s')
    (hp : f.phase = .aborted cause) : reply = abortReply cause ∧ f' = f := by
  cases h with
  | stopped hp' =>
    rw [hp, FilterPhase.aborted.injEq] at hp'
    subst hp'
    exact ⟨rfl, rfl⟩
  | unselected _ hp' | ended hp' | served hp' | gone hp' | asked hp' => simp [hp] at hp'

/-- The consumer has been told why there is no more input, or will be. -/
def WillTell (f : Filter) : Prop :=
  f.phase = .aborted .general ∨ f.phase = .aborted .connAborted ∨
    f.phase = .active ∧ (f.demux.input.last ≠ .failed .eof ∨ f.demux.input.buffer ≠ [])

omit [Source σ] in
/-- An answer after which the end of the input is not to be told does not tell it. -/
theorem Answers.willTell (h : Answers r f reply f') (hp : f.phase = .active)
    (hin : f'.phase = .aborted .general ∨ f'.demux.input.last ≠ .failed .eof ∨
      f'.demux.input.buffer ≠ []) :
    f'.WillTell ∧ reply.status ≠ .failed .eof := by
  have hstatus : reply.status ≠ .failed .eof := by
    intro he
    have hend := h.atEnd hp he
    rcases hin with hg | hl | hb
    · rcases hend.phase with ⟨h, -⟩ | ⟨h, -⟩ <;> simp [hg] at h
    · exact hl hend.last
    · exact hb hend.buffer
  refine ⟨?_, hstatus⟩
  rcases h.phase hp with ha | ⟨hg, -⟩ | ⟨-, he⟩
  · exact Or.inr (Or.inr ⟨ha, hin.resolve_left (by simp [ha])⟩)
  · exact Or.inl hg
  · exact absurd he hstatus

theorem Handles.willTell (h : Handles r f s reply f' s') (hf : f.demux.failed = true)
    (hw : f.WillTell) : f'.WillTell ∧ reply.status ≠ .failed .eof := by
  have hinput := (h.of_failed hf).2.1
  cases h with
  | unselected _ hp | ended hp => simp [WillTell, hp] at hw
  | stopped hp =>
    refine ⟨hw, ?_⟩
    rcases hw with hg | hg | ⟨hg, -⟩ <;> rw [hp] at hg <;> simp_all [abortReply]
  | gone => exact ⟨Or.inr (Or.inl rfl), by simp [abortReply]⟩
  | asked => exact ⟨hw, by simp [Reply.ok]⟩
  | served hp _ _ ha =>
    refine ha.willTell hp (Or.inr ?_)
    rw [hinput]
    rcases hw with hg | hg | ⟨-, hg⟩
    · simp [hp] at hg
    · simp [hp] at hg
    · exact hg

end Filter

namespace Session

variable {t : Session σ} {max : Nat} {r : ReadRequest}

/-- The input of the filter has failed. -/
structure Broken (t : Session σ) : Prop where
  demuxes : t.filter.Demuxes
  failed : t.filter.demux.failed = true

/-- An input that has failed stays as it is, and the source is left alone. -/
theorem Broken.step (h : t.Broken) (a : Act σ) :
    (t.step a).Broken ∧ (t.step a).filter.demux.input = t.filter.demux.input ∧
      (t.step a).source.calls = t.source.calls := by
  cases a with
  | read r =>
    obtain ⟨reply, -, hh⟩ := h.demuxes.handles r t.source
    obtain ⟨hs, hinput, hfailed⟩ := hh.of_failed h.failed
    exact ⟨⟨hh.demuxes h.demuxes, hfailed⟩, hinput, congrArg Recorded.calls hs⟩
  | giveUp | agree | move => exact ⟨⟨h.demuxes, h.failed⟩, rfl, rfl⟩

/-- How a read is answered in which the input fails. -/
theorem answers_of_fails (hf : t.filter.demux.failed = false)
    (hf' : (t.step (.read r)).filter.demux.failed = true) :
    ∃ reply, (t.filter.read r t.source).reply = .ok reply ∧
      (t.filter.approach t.source).1.phase = .active ∧
      (t.filter.approach t.source).1.isDisturbed (t.filter.approach t.source).2 = false ∧
      r.mode ≠ .init ∧
      Filter.Answers r
        { (t.filter.approach t.source).1 with
          demux := (t.filter.demux.pumpUntilReady r.blocking (t.filter.approach t.source).2).1 }
        reply (t.step (.read r)).filter ∧
      (t.step (.read r)).source =
        (t.filter.demux.pumpUntilReady r.blocking (t.filter.approach t.source).2).2.1 := by
  have hf' : (t.filter.read r t.source).filter.demux.failed = true := hf'
  have hbefore : (t.filter.approach t.source).1.demux.failed = false := by
    rw [Filter.demux_approach]
    exact hf
  have hpass : t.filter.answering t.source ≠ .passThrough := by
    intro hpass
    rw [Filter.filter_read_of_answering hpass, hbefore] at hf'
    exact absurd hf' Bool.false_ne_true
  obtain ⟨reply, hreply, hh⟩ := Filter.handles_read (r := r) hpass
  refine ⟨reply, hreply, ?_⟩
  simp only [step]
  rw [← Filter.demux_approach t.filter t.source]
  generalize (t.filter.read r t.source).filter = after at hh hf' ⊢
  generalize (t.filter.read r t.source).source = source at hh ⊢
  cases hh with
  | served hp hd hr ha => exact ⟨hp, hd, hr, ha, rfl⟩
  | unselected | stopped | gone | asked | ended =>
    simp only [hbefore] at hf'
    exact absurd hf' Bool.false_ne_true

/-- A read in which the input fails leaves it failed. -/
theorem broken_of_fails (hf : t.filter.demux.failed = false)
    (hf' : (t.step (.read r)).filter.demux.failed = true) : (t.step (.read r)).Broken := by
  obtain ⟨reply, -, hp, -, -, ha, -⟩ := answers_of_fails hf hf'
  exact ⟨ha.demuxes hp, hf'⟩

/-- A filter that is to tell why there is no more input never says that it has ended. -/
theorem Broken.willTell_run (h : t.Broken) (hw : t.filter.WillTell) (acts : List (Act σ)) :
    (t.run acts).Broken ∧ (t.run acts).filter.WillTell ∧ ∀ a ∈ t.heard acts, ¬ SaysEnd a.2 := by
  induction acts generalizing t with
  | nil => exact ⟨h, hw, fun a ha => absurd ha List.not_mem_nil⟩
  | cons a acts ih =>
    cases a with
    | read r =>
      obtain ⟨reply, hreply, hh⟩ := h.demuxes.handles r t.source
      obtain ⟨hw', hstatus⟩ := hh.willTell h.failed hw
      obtain ⟨hbroken, htold, hlater⟩ := ih (h.step (.read r)).1 hw'
      refine ⟨hbroken, htold, fun b hb => ?_⟩
      rw [heard, List.mem_cons] at hb
      rcases hb with rfl | hb
      · rw [hreply]
        exact hstatus
      · exact hlater b hb
    | giveUp => exact ih (h.step .giveUp).1 hw
    | agree p => exact ih (h.step (.agree p)).1 hw
    | move s => exact ih (h.step (.move s)).1 hw

/-- One more read of a filter that has kept the end of the input back tells it, or leaves less to
deliver before it is told. -/
theorem Broken.ends_step (h : t.Broken) (hp : t.filter.phase = .active)
    (hd : t.filter.isDisturbed t.source = false) (hdata : t.filter.demux.feed.hasData = true)
    (hlast : t.filter.demux.input.last = .failed .eof) (hbuffer : t.filter.demux.input.buffer = [])
    (hr : r.mode = .bytes) :
    SaysEnd (t.filter.read r t.source).reply ∨
      (t.step (.read r)).filter.phase = .active ∧
        (t.step (.read r)).filter.isDisturbed (t.step (.read r)).source = false ∧
        (t.step (.read r)).filter.demux.feed.hasData = true ∧
        (t.step (.read r)).filter.demux.feed.held < t.filter.demux.feed.held := by
  obtain ⟨reply, hreply, hh⟩ := h.demuxes.handles r t.source
  obtain ⟨hs, -, -⟩ := hh.of_failed h.failed
  have ha := (hh.answers hp hd (by simp [hr])).1
  rw [(Demultiplexer.pumpUntilReady_of_failed _ _ h.failed).1] at ha
  have hdata' : t.filter.demux.prune.feed.hasData = true := (Feed.hasData_prune _).trans hdata
  simp only [Session.step, hreply, hs]
  generalize (t.filter.read r t.source).filter = after at ha ⊢
  cases ha with
  | broken hwhy => simp [Feed.hasError_eq_false_of_hasData hdata', hdata'] at hwhy
  | more _ hb hok hmore =>
    refine Or.inr ⟨hp, hd, hmore, ?_⟩
    have hheld := Feed.length_drain_add_held_le hr hok
    have hprune := Feed.held_prune_le t.filter.demux.feed
    have hpos := List.length_pos_iff.mpr hb
    simp only [Reply.ok, Brigade.bytes_ofBytes, Filter.drained, Demultiplexer.prune] at hheld ⊢
    omega
  | settled _ _ _ _ hs => exact Or.inl (hs.of_last_eq_eof hbuffer hlast).1

/-- A filter that has kept the end of the input back tells it once everything is delivered. -/
theorem Broken.ends (h : t.Broken) (hp : t.filter.phase = .active)
    (hd : t.filter.isDisturbed t.source = false) (hdata : t.filter.demux.feed.hasData = true)
    (hlast : t.filter.demux.input.last = .failed .eof)
    (hbuffer : t.filter.demux.input.buffer = []) :
    ∃ acts, ∃ a ∈ t.heard acts, SaysEnd a.2 := by
  -- every read that does not tell the end leaves fewer bytes to deliver
  induction hn : t.filter.demux.feed.held using Nat.strongRecOn generalizing t with
  | ind n ih =>
    obtain ⟨hbroken, hinput, -⟩ := h.step (.read ⟨.bytes, .block, 0⟩)
    rcases h.ends_step hp hd hdata hlast hbuffer (r := ⟨.bytes, .block, 0⟩) rfl with
      hsaid | ⟨hp', hd', hdata', hlt⟩
    · exact ⟨[.read _], _, List.mem_cons_self, hsaid⟩
    · obtain ⟨acts, a, ha, hsaid⟩ := ih _ (hn ▸ hlt) hbroken hp' hd' hdata'
        (by rw [hinput, hlast]) (by rw [hinput, hbuffer]) rfl
      exact ⟨.read _ :: acts, a, List.mem_cons_of_mem _ ha, hsaid⟩

/-- What the consumer has got since then are bytes of complete requests. -/
def LedFrom (max : Nat) (before t : Session σ) : Prop :=
  t.consumed = before.consumed ∨
    ∃ taken, t.source.delivered = taken ++ t.filter.demux.input.buffer ∧
      t.consumed <+: (Transcript.ofBytes max taken).requests.leading.flatMap Projection.written

theorem Broken.led_step {before : Session σ} (h : t.Broken) (hs : t.Sound max)
    (hl : LedFrom max before t) (a : Act σ) : LedFrom max before (t.step a) := by
  cases a with
  | read r =>
    obtain ⟨reply, hreply, hh⟩ := h.demuxes.handles r t.source
    obtain ⟨hsource, hinput, -⟩ := hh.of_failed h.failed
    have hconsumed := consumed_step_read hreply
    rcases hh.leading Recorded.keeps_gave h.failed (hs h.demuxes.2).traces with hnil | hnew
    · unfold LedFrom
      rw [hconsumed, hnil, List.append_nil]
      simp only [Session.step, hsource, hinput]
      exact hl
    · right
      rw [hconsumed]
      exact hnew
  | giveUp | agree | move => exact hl

theorem Broken.led_run {before : Session σ} (h : t.Broken) (hs : t.Sound max)
    (hl : LedFrom max before t) (acts : List (Act σ)) : LedFrom max before (t.run acts) := by
  induction acts generalizing t with
  | nil => exact hl
  | cons a acts ih => exact ih (h.step a).1 (hs.step a) (h.led_step hs hl a)

/-- A failure of the input in a read is not swallowed. -/
structure FailureTold (max : Nat) (t : Session σ) (r : ReadRequest) : Prop where
  /-- From this read on, no read says that the input has ended, and the filter is not exhausted. -/
  endless : ∀ acts, (t.run (.read r :: acts)).filter.phase ≠ .exhausted ∧
    ∀ a ∈ t.heard (.read r :: acts), ¬ SaysEnd a.2
  /-- What is delivered from this read on belongs to complete requests that come before all
  others. -/
  leading : ∀ acts, LedFrom max t (t.run (.read r :: acts))
  /-- A later read that finds nothing to deliver tells that the input is unusable, unless the
  connection is gone. -/
  told : ∀ acts, (t.run (.read r :: acts)).Connected →
    (t.run (.read r :: acts)).filter.demux.feed.hasData = false →
    ∀ again : ReadRequest, again.mode ≠ .init →
      let result := (t.run (.read r :: acts)).filter.read again (t.run (.read r :: acts)).source
      result.reply = .ok (Filter.abortReply .general) ∧
        result.filter.phase = .aborted .general

theorem Broken.told_of_connected (h : t.Broken) (hw : t.filter.WillTell) (hc : t.Connected)
    (hdata : t.filter.demux.feed.hasData = false) {again : ReadRequest} (hr : again.mode ≠ .init) :
    (t.filter.read again t.source).reply = .ok (Filter.abortReply .general) ∧
      (t.filter.read again t.source).filter.phase = .aborted .general := by
  obtain ⟨reply, hreply, hh⟩ := h.demuxes.handles again t.source
  rw [hreply]
  rcases hw with hg | hgone | ⟨ha, -⟩
  · obtain ⟨rfl, hafter⟩ := hh.of_aborted hg
    rw [hafter]
    exact ⟨rfl, hg⟩
  · exact absurd hgone hc.unnoticed
  · obtain ⟨rfl, hphase⟩ := hh.reports ha hc.undisturbed hr (Or.inr ⟨h.failed, hdata⟩)
    exact ⟨rfl, hphase⟩

/-- A failure that is kept back when the end of the input is told next is swallowed. -/
theorem exists_saysEnd_of_fails (hf : t.filter.demux.failed = false)
    (hf' : (t.step (.read r)).filter.demux.failed = true)
    (hg : (t.step (.read r)).filter.phase ≠ .aborted .general)
    (hlast : (t.step (.read r)).filter.demux.input.last = .failed .eof)
    (hbuffer : (t.step (.read r)).filter.demux.input.buffer = []) :
    ∃ acts, ∃ a ∈ t.heard (.read r :: acts), SaysEnd a.2 := by
  obtain ⟨reply, hreply, hp, hd, -, ha, -⟩ := answers_of_fails hf hf'
  obtain ⟨hinput, -, hcontext⟩ := ha.frame
  rcases ha.of_last_eq_eof hp (hinput ▸ hlast) (hinput ▸ hbuffer) with he | he | ⟨hactive, hdata⟩
  · exact absurd he hg
  · refine ⟨[], _, List.mem_cons_self, ?_⟩
    rw [hreply]
    exact he
  · -- were the source to stay as it was before the read, the consumer could read on
    let still := (t.step (.read r)).step (.move (t.filter.approach t.source).2.source)
    have hstill : still.filter.isDisturbed still.source = false := by
      unfold Filter.isDisturbed
      rw [show still.filter.context = (t.filter.approach t.source).1.context from hcontext]
      exact hd
    have hbroken := broken_of_fails hf hf'
    obtain ⟨more, a, hmem, hsaid⟩ := Broken.ends (t := still)
      ⟨hbroken.demuxes, hbroken.failed⟩ hactive hstill hdata hlast hbuffer
    exact ⟨.move _ :: more, a, List.mem_cons_of_mem _ hmem, hsaid⟩

/-- What a read delivers in which the input fails are bytes of complete requests. -/
theorem led_of_fails (ht : t.Sound max) (hf : t.filter.demux.failed = false)
    (hf' : (t.step (.read r)).filter.demux.failed = true) :
    LedFrom max t (t.step (.read r)) := by
  obtain ⟨reply, hreply, -, -, hr, ha, hsource⟩ := answers_of_fails hf hf'
  have hsound := ht (phase_ne_of_step (broken_of_fails hf hf').demuxes.2)
  have htraces := (hsound.approach Recorded.probeKeeps_gave).traces
  rw [Filter.demux_approach] at htraces
  have hpumped := htraces.pumpUntilReady r.blocking Recorded.keeps_gave
  unfold LedFrom
  rw [consumed_step_read hreply]
  rcases ha.leading hr (ha.frame.2.1 ▸ hf') hpumped with hnil | hnew
  · left
    rw [hnil, List.append_nil]
  · right
    rw [← hsource] at hnew
    exact hnew

/-- A failure is told when the end of the input is not to be told. -/
theorem failureTold_of_fails (ht : t.Sound max) (hf : t.filter.demux.failed = false)
    (hf' : (t.step (.read r)).filter.demux.failed = true)
    (hin : (t.step (.read r)).filter.phase = .aborted .general ∨
      (t.step (.read r)).filter.demux.input.last ≠ .failed .eof ∨
      (t.step (.read r)).filter.demux.input.buffer ≠ []) :
    FailureTold max t r := by
  obtain ⟨reply, hreply, hp, -, -, ha, -⟩ := answers_of_fails hf hf'
  obtain ⟨hw, hstatus⟩ := ha.willTell hp hin
  have hbroken := broken_of_fails hf hf'
  constructor
  · intro acts
    obtain ⟨-, hwill, hlater⟩ := hbroken.willTell_run hw acts
    constructor
    · intro he
      rw [run_cons] at he
      simp [Filter.WillTell, he] at hwill
    · intro a hmem
      rcases List.mem_cons.mp hmem with rfl | hmem
      · rw [hreply]
        exact hstatus
      · exact hlater a hmem
  · intro acts
    exact hbroken.led_run (ht.step _) (led_of_fails ht hf hf') acts
  · intro acts hc hdata again hagain
    obtain ⟨hbroken', hwill, -⟩ := hbroken.willTell_run hw acts
    exact hbroken'.told_of_connected hwill hc hdata hagain

/--
A failure of the input in a read is swallowed exactly when the last read of the source said that
the input had ended and everything it gave has been taken, unless the failure is reported at once.
-/
theorem failureTold_iff (context : ConnectionContext) (c : FilterConfig) (s : σ)
    (acts : List (Act σ)) (r : ReadRequest) :
    let t := (start context c s).run acts
    let t' := t.step (.read r)
    t.filter.demux.failed = false → t'.filter.demux.failed = true →
    (FailureTold c.maxPayloadSize t r ↔
      t'.filter.phase = .aborted .general ∨ t'.filter.demux.input.last ≠ .failed .eof ∨
        t'.filter.demux.input.buffer ≠ []) := by
  intro t t' hf hf'
  have ht : t.Sound c.maxPayloadSize := sound_run context c s acts
  constructor
  · intro h
    refine Classical.byContradiction fun hout => ?_
    simp only [not_or, Decidable.not_not] at hout
    obtain ⟨hg, hlast, hbuffer⟩ := hout
    obtain ⟨more, a, hmem, hsaid⟩ := exists_saysEnd_of_fails hf hf' hg hlast hbuffer
    exact (h.endless more).2 a hmem hsaid
  · exact failureTold_of_fails ht hf hf'

end Session

end

namespace Session

/-- A connection that gives a request and then bytes that are no frame. -/
def garbled (status : Status) : Session ScriptedSource :=
  start { protocol := .multiplexed } {}
    (.ofBytes ((Frame.opening 1 "/a" 1).bytes ++ Bytes.utf8 "not a frame at all") status)

/-- When the garbled bytes are all that has come so far, the consumer is told. -/
theorem garbled_failureTold :
    FailureTold ({} : FilterConfig).maxPayloadSize (garbled .ok) ⟨.bytes, .block, 0⟩ := by
  refine (failureTold_iff _ {} _ [] ⟨.bytes, .block, 0⟩ ?_ ?_).mpr (Or.inr (Or.inl ?_)) <;>
    decide +kernel

/-- When they come together with the end of the input, the failure is swallowed. -/
theorem garbled_swallowed :
    (garbled (.failed .eof)).filter.demux.failed = false ∧
      ((garbled (.failed .eof)).step (.read ⟨.bytes, .block, 0⟩)).filter.demux.failed = true ∧
      ((garbled (.failed .eof)).step (.read ⟨.bytes, .block, 0⟩)).filter.phase = .exhausted ∧
      ¬ FailureTold ({} : FilterConfig).maxPayloadSize (garbled (.failed .eof))
          ⟨.bytes, .block, 0⟩ := by
  have hexhausted : ((garbled (.failed .eof)).step (.read ⟨.bytes, .block, 0⟩)).filter.phase =
      .exhausted := by decide +kernel
  refine ⟨by decide +kernel, by decide +kernel, hexhausted, ?_⟩
  intro h
  exact (h.endless []).1 hexhausted

end Session
end RequestFeed
