import RequestFeed.Proofs.Filter.Session
/-!
# Progress of active filters

What one read of an active filter may give. A consumer that reads on as long as all is well gets
bytes with every read, and each read gives bytes of one request only.

*Reason.* A filter says that all is well for one of three reasons: more can be delivered, bytes of
the source are left over, or the last read of the source went well. Pumping stops only when there is
something to deliver or the source gives nothing (`Demultiplexer.stopped_pumpUntilReady`), so none
of the three comes without bytes.

*Results.*
* `Filter.Answers.moves`: what a filter answers once it has pumped.
* `Session.makes_progress`: every read of an active filter, and every run of reads.
-/

namespace RequestFeed

/-! ### What is read from the first request of a feed -/

namespace Feed

/-- These bytes have been read from the first request of a feed. No other request has been touched,
but those that were finished with have been released. -/
structure ReadsFirst (r : ReadRequest) (before after : Feed) (bs : Bytes) : Prop where
  ne_nil : bs ≠ []
  limited : r.limit ≠ 0 → r.mode ≠ .exhaustive → bs.length ≤ r.limit
  first : ∃ s rest, before.prune.slots = s :: rest ∧
    (s.projection.output.read r).1 = Reply.ok bs ∧ bs <+: s.projection.output.held.bytes ∧
    after = Feed.prune
      { before.prune with
        slots :=
          { s with projection := { s.projection with output := (s.projection.output.read r).2 } } ::
            rest }

variable {r : ReadRequest} {f : Feed} {bs : Bytes}

/-- Draining reads from the first request. -/
theorem readsFirst_drain (h : f.hasData = true) (hr : r.mode ≠ .init)
    (hreply : (f.drain r).reply = .ok (Reply.ok bs)) : ReadsFirst r f (f.drain r).feed bs := by
  obtain ⟨s, rest, hs, -, -, hheld⟩ := head_of_hasData h
  obtain ⟨hok, hfeed⟩ := drain_of_hasData (r := r) h hs
  have hread : (s.projection.output.read r).1 = Reply.ok bs := by
    rw [hok] at hreply
    exact Except.ok.inj hreply
  obtain ⟨bs', hreply', hportion⟩ :=
    (Accumulator.answers_read r s.projection.output).exists_portion hr hheld
  obtain rfl : bs' = bs := by
    have hbytes := congrArg (fun reply => reply.output.bytes) (hreply'.symm.trans hread)
    simpa [Reply.ok] using hbytes
  exact
    { ne_nil := hportion.ne_nil
      limited := fun hl he => hportion.within he hl
      first := ⟨s, rest, hs, hread, hportion.front, hfeed⟩ }

end Feed

/-! ### Answers -/

/-- What a read gives that has found these requests in a feed: bytes of the first of them, or the
mark that no more will follow, or nothing. All is well only when there are bytes. -/
inductive Reply.Moves (r : ReadRequest) (before after : Feed) : Reply → Prop where
  | moved {bs : Bytes} (status : Status) :
      before.ReadsFirst r after bs → Moves r before after { output := [.data bs], status }
  | marked (e : ReadError) :
      Moves r before after { output := [.eos], status := .failed e }
  | nothing (e : ReadError) : Moves r before after { output := [], status := .failed e }

/-- When all is well, there are bytes and nothing else. -/
theorem Reply.Moves.of_ok {r : ReadRequest} {before after : Feed} {reply : Reply}
    (h : reply.Moves r before after) (hok : reply.status = .ok) :
    ∃ bs, bs ≠ [] ∧ reply.output = [.data bs] := by
  cases h with
  | moved _ hread => exact ⟨_, hread.ne_nil, rfl⟩
  | marked | nothing => simp at hok

/-- There was a reason to stop pumping. -/
def Demultiplexer.Stopped (d : Demultiplexer) : Prop :=
  d.feed.hasError = true ∨ d.feed.hasData = true ∨ d.failed = true ∨ d.input.buffer = []

namespace Filter

section

variable {σ : Type} {r : ReadRequest} {f f' : Filter} {reply : Reply} {bs : Bytes}

/-- Bytes that have been read are told with any status; without bytes, all is not well once the
buffer is empty. -/
theorem Settles.moves {before : Feed} (h : Settles f bs reply f')
    (hbs : before.ReadsFirst r f.demux.feed bs ∨ bs = [] ∧ f.demux.input.buffer = []) :
    reply.Moves r before f'.demux.feed := by
  have hmoved (hread : before.ReadsFirst r f.demux.feed bs) (status : Status) :
      Reply.Moves r before f.demux.feed { Reply.ok bs with status } := by
    rw [Reply.ok, Brigade.ofBytes_of_ne_nil hread.ne_nil]
    exact .moved status hread
  rcases hbs with hread | ⟨rfl, hbuffer⟩
  · cases h with
    | waiting _ _ hnil => exact absurd hnil hread.ne_nil
    | buffered | well => exact hmoved hread .ok
    | told | ended => exact hmoved hread _
  · cases h with
    | buffered hne => exact absurd hbuffer hne
    | well _ _ hne => exact absurd rfl hne
    | waiting | told | ended => exact .nothing _

/-- Once pumping has stopped, all is well only when there are bytes. -/
theorem Answers.moves (h : Answers r f reply f') (hr : r.mode ≠ .init)
    (hstopped : f.demux.Stopped) : reply.Moves r f.demux.feed f'.demux.feed := by
  cases h with
  | broken => exact .marked .general
  | more hdata hne hreply =>
    rw [Reply.ok, Brigade.ofBytes_of_ne_nil hne]
    exact .moved .ok (Feed.readsFirst_drain hdata hr hreply)
  | settled herr hdata hreply _ hs =>
    refine hs.moves ?_
    rcases hdata with ⟨hdata, -⟩ | ⟨hdata, hfailed, hnil⟩
    · exact Or.inl (Feed.readsFirst_drain hdata hr hreply)
    · refine Or.inr ⟨hnil, ?_⟩
      -- nothing to report and no failure, so pumping has stopped because the source gave nothing
      rcases hstopped with h | h | h | hbuffer
      · simp [herr] at h
      · simp [hdata] at h
      · simp [hfailed] at h
      · exact hbuffer

end

section

variable {σ : Type} [Source σ] {r : ReadRequest} {f f' : Filter} {s s' : σ} {reply : Reply}
  {H : Bytes → Status → σ → Prop} {max : Nat} {out : Bytes}

theorem stopped_of_traces (hH : Source.Keeps H) (h : f.demux.Traces H max out s)
    (blocking : Blocking) : (f.demux.pumpUntilReady blocking s).1.Stopped := by
  obtain ⟨-, herr | hdata | hfailed | hstarved⟩ :=
    Demultiplexer.stopped_pumpUntilReady blocking hH h
  · exact Or.inl herr
  · exact Or.inr (Or.inl hdata)
  · exact Or.inr (Or.inr (Or.inl hfailed))
  · exact Or.inr (Or.inr (Or.inr hstarved.1))

/-- What an active filter gives is read from the feed that it has pumped. -/
theorem Handles.moves (hH : Source.Keeps H) (ht : f.demux.Traces H max out s)
    (h : Handles r f s reply f' s') (hp : f.phase = .active) (hr : r.mode ≠ .init) :
    reply.Moves r (f.demux.pumpUntilReady r.blocking s).1.feed f'.demux.feed := by
  cases h with
  | unselected _ hp' | stopped hp' | ended hp' => simp [hp] at hp'
  | gone => exact .marked .connAborted
  | asked _ _ hr' => exact absurd hr' hr
  | served _ _ _ ha => exact ha.moves hr (stopped_of_traces hH ht r.blocking)

/-- Only an active filter finds all well. -/
theorem Handles.active_of_ok (h : Handles r f s reply f' s') (hr : r.mode ≠ .init)
    (hok : reply.status = .ok) : f.phase = .active := by
  cases h with
  | served hp => exact hp
  | asked _ _ hr' => exact absurd hr' hr
  | unselected | stopped | gone | ended => simp [Reply.failed, abortReply] at hok

end

end Filter

/-! ### Sessions -/

namespace Session

variable {σ : Type}

/-- The consumer has asked for something and found all well. -/
def goesWell : ReadRequest × Except Violation Reply → Bool
  | (r, .ok reply) => r.mode ≠ .init && reply.status = .ok
  | (_, .error _) => false

/-- The bytes of an answer. -/
def shownBy : ReadRequest × Except Violation Reply → Bytes
  | (_, .ok reply) => reply.output.bytes
  | (_, .error _) => []

/-- All bytes that the consumer has got, for good or to look at. -/
def shown (t : Session σ) : Bytes := t.answers.flatMap shownBy

variable [Source σ] {max : Nat} {t : Session σ}

/-- The feed that a read finds, once selection has been looked into and the filter has pumped. -/
def pumped (r : ReadRequest) (t : Session σ) : Feed :=
  ((t.filter.approach t.source).1.demux.pumpUntilReady r.blocking
    (t.filter.approach t.source).2).1.feed

/-- What a read of an active filter gives. -/
theorem Sound.moves (h : t.Sound max) {r : ReadRequest} (hr : r.mode ≠ .init)
    (hactive : t.filter.answering t.source = .active) :
    ∃ reply, (t.filter.read r t.source).reply = .ok reply ∧
      reply.Moves r (t.pumped r) (t.step (.read r)).filter.demux.feed := by
  have hpass : t.filter.answering t.source ≠ .passThrough := by simp [hactive]
  have hphase : t.filter.phase ≠ .passThrough := by
    intro hp
    rw [Filter.answering, Filter.approach_of_ne (by simp [hp])] at hpass
    exact hpass hp
  obtain ⟨reply, hreply, hh⟩ := Filter.handles_read (r := r) hpass
  have hsound := (h hphase).approach Recorded.probeKeeps_gave
  exact ⟨reply, hreply, hh.moves Recorded.keeps_gave hsound.traces hactive hr⟩

/-- A consumer that finds all well has got something. -/
theorem Sound.shown_of_goesWell (h : t.Sound max) {r : ReadRequest}
    (hp : (t.step (.read r)).filter.phase ≠ .passThrough)
    (hwell : goesWell (r, (t.filter.read r t.source).reply) = true) :
    shownBy (r, (t.filter.read r t.source).reply) ≠ [] := by
  have hpass : t.filter.answering t.source ≠ .passThrough := fun hpass =>
    hp (Filter.phase_read_of_answering hpass)
  obtain ⟨reply, hreply, hh⟩ := Filter.handles_read (r := r) hpass
  obtain ⟨hr, hok⟩ : r.mode ≠ .init ∧ reply.status = .ok := by
    simpa [hreply, goesWell] using hwell
  obtain ⟨reply', hreply', hmoves⟩ := h.moves hr (hh.active_of_ok hr hok)
  obtain rfl : reply = reply' := Except.ok.inj (hreply.symm.trans hreply')
  obtain ⟨bs, hne, hbytes⟩ := hmoves.of_ok hok
  simpa [hreply, shownBy, hbytes, Bucket.bytes] using hne

/-- The consumer has got a byte at least for every read that it found well. -/
def Advances (t : Session σ) : Prop :=
  t.filter.phase ≠ .passThrough → t.answers.countP goesWell ≤ t.shown.length

theorem Advances.step (h : t.Advances) (hsound : t.Sound max) (a : Act σ) :
    (t.step a).Advances := by
  intro hp
  have hle := h (phase_ne_of_step hp)
  cases a with
  | read r =>
    have hgot := hsound.shown_of_goesWell hp
    have hanswers : (t.step (.read r)).answers =
        t.answers ++ [(r, (t.filter.read r t.source).reply)] := rfl
    rw [shown, hanswers, List.countP_append, List.flatMap_append, List.length_append]
    refine Nat.add_le_add hle ?_
    cases hwell : goesWell (r, (t.filter.read r t.source).reply) with
    | false => simp [hwell]
    | true => simpa [hwell, Nat.one_le_iff_ne_zero] using hgot hwell
  | giveUp | agree | move => exact hle

theorem Advances.run (h : t.Advances) (hsound : t.Sound max) (acts : List (Act σ)) :
    (t.run acts).Advances := by
  induction acts generalizing t with
  | nil => exact h
  | cons a acts ih => exact ih (h.step hsound a) (hsound.step a)

/-- Whatever has happened before, a read of an active filter gives bytes of the first request, and
no more than its limit unless it asks for everything; or it gives no bytes, and says why. So the
consumer has got a byte at least for every read that it found well. -/
theorem makes_progress (context : ConnectionContext) (c : FilterConfig) (s : σ)
    (acts : List (Act σ)) :
    let t := (start context c s).run acts
    (∀ r : ReadRequest, r.mode ≠ .init → t.filter.answering t.source = .active →
      ∃ reply, (t.filter.read r t.source).reply = .ok reply ∧
        reply.Moves r (t.pumped r) (t.step (.read r)).filter.demux.feed) ∧
      (t.filter.phase ≠ .passThrough → t.answers.countP goesWell ≤ t.shown.length) := by
  intro t
  have hstart : (start context c s).Advances := fun _ => Nat.zero_le _
  exact ⟨fun r hr hactive => (sound_run context c s acts).moves hr hactive,
    hstart.run (sound_start context c s) acts⟩

/-- A part of the first request has been read, and the next read gets another. -/
theorem twoRequests_makes_progress :
    let piece := (Frame.opening 1 "/a" 1).bytes ++ (Frame.opening 3 "/b" 1).bytes
    let t := (start { protocol := .multiplexed } {} (ScriptedSource.ofBytes piece .ok)).run
      [.read ⟨.bytes, .block, 5⟩]
    let r : ReadRequest := ⟨.bytes, .block, 4⟩
    t.filter.answering t.source = .active ∧
      (∃ reply, (t.filter.read r t.source).reply = .ok reply ∧ reply.status = .ok ∧
        reply.Moves r (t.pumped r) (t.step (.read r)).filter.demux.feed) ∧
      t.answers.countP goesWell = 1 ∧ t.answers.countP goesWell ≤ t.shown.length := by
  intro piece t r
  have hactive : t.filter.answering t.source = .active := by decide +kernel
  have hphase : t.filter.phase ≠ .passThrough := by decide +kernel
  have hok : (t.filter.read r t.source).reply.toOption.map (·.status) = some .ok := by
    decide +kernel
  obtain ⟨hmoves, hadvances⟩ := makes_progress { protocol := .multiplexed } {}
    (ScriptedSource.ofBytes piece .ok) [.read ⟨.bytes, .block, 5⟩]
  obtain ⟨reply, hreply, hgot⟩ := hmoves r (by decide) hactive
  have hstatus : reply.status = .ok := by
    rw [hreply] at hok
    simpa [Except.toOption] using hok
  exact ⟨hactive, ⟨reply, hreply, hstatus, hgot⟩, by decide +kernel, hadvances hphase⟩

end Session
end RequestFeed
