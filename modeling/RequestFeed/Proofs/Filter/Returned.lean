import RequestFeed.Proofs.Filter.Contracts
import RequestFeed.Proofs.Filter.Failure
import RequestFeed.Proofs.Filter.Turns
/-!
# Statuses that are returned

A source says with its bytes how the read ended, and the consumer is to be told once it has got what
came with it, before the source is read again.

*Invariant.* `Turn.Keeps`: all turns of a filter but the latest are settled, and the latest rests:
it is settled as well, or its status is kept back for as long as there is something to deliver.

*Results.*
* `Turn.Keeps.handles`: however a read is handled, the invariant is kept.
* `Session.Covers.run`: the turns are all the reads that took bytes, in order, with all answers
  from the first of them on.
* `Session.Accounts.willReport`: a status that was kept back is told if the consumer reads on.
* `Session.returned_iff`: the consumer is told how a read of the source ended before the next one,
  or could be if there is none yet, exactly when the read was not in vain.
-/

namespace RequestFeed

namespace Filter

/-- The filter has been aborted, its input has failed, or the failure of a stream is next in
turn. -/
def IsStopped (f : Filter) : Prop :=
  (∃ cause, f.phase = .aborted cause) ∨ f.demux.failed = true ∨ f.demux.feed.hasError = true

variable {r : ReadRequest} {f f' : Filter} {reply : Reply} {bs : Bytes}

/-- A filter that has bytes buffered keeps the status back. -/
theorem Settles.of_buffered (h : Settles f bs reply f') (hb : f.demux.input.buffer ≠ []) :
    reply = Reply.ok bs ∧ f' = f := by
  cases h with
  | buffered => exact ⟨rfl, rfl⟩
  | well hempty | waiting hempty | told hempty | ended hempty => exact absurd hempty hb

/-- A filter that has used up the bytes of a read that failed tells so. -/
theorem Settles.status (h : Settles f bs reply f') (hb : f.demux.input.buffer = []) {e : ReadError}
    (he : f.demux.input.last = .failed e) : reply.status = .failed e := by
  cases h with
  | buffered hne => exact absurd hb hne
  | well _ hok | waiting _ hok => simp [he] at hok
  | told _ hlast => rw [← he, hlast]
  | ended _ hlast => rw [← he, hlast]

/-- A filter that cannot go on answers that, or delivers what is left and still cannot go on. -/
theorem Answers.isStopped (h : Answers r f reply f')
    (hf : f.demux.feed.hasError = true ∨ f.demux.failed = true) : f'.IsStopped := by
  have hframe := h.frame
  cases h with
  | broken => exact Or.inl ⟨_, rfl⟩
  | more hdata =>
    have hf := hf.resolve_left (by simp [Feed.hasError_eq_false_of_hasData hdata])
    exact Or.inr (Or.inl (hframe.2.1.trans hf))
  | settled herr =>
    have hf := hf.resolve_left (by simp [herr])
    exact Or.inr (Or.inl (hframe.2.1.trans hf))

/-- Finding out which protocol was selected takes nothing. -/
theorem calls_approach {σ : Type} [Source σ] (f : Filter) (s : Recorded σ) :
    ∃ calls, (f.approach s).2.calls = s.calls ++ calls ∧
      ∀ call ∈ calls, call.1.mode.consumes = false := by
  have hprobe : ∃ calls, (Source.read probe s).2.calls = s.calls ++ calls ∧
      ∀ call ∈ calls, call.1.mode.consumes = false :=
    ⟨[(probe, (Source.read probe s.source).1)], rfl, by simp [probe, ReadMode.consumes]⟩
  rw [approach]
  split
  · split
    · exact hprobe
    · exact hprobe
  · exact ⟨[], by simp, fun call hcall => absurd hcall List.not_mem_nil⟩

/-- Reads of the source are recorded one after the other. -/
theorem exists_calls_read {σ : Type} [Source σ] {f : Filter} (hd : f.demux.chunk ≠ 0)
    (r : ReadRequest) (s : Recorded σ) :
    ∃ calls, (f.read r s).source.calls = s.calls ++ calls := by
  by_cases hpass : f.answering s = .passThrough
  · obtain ⟨first, hfirst, -⟩ := calls_approach f s
    obtain ⟨told, hread⟩ := read_of_answering (r := r) hpass
    rw [hread, passOn]
    split
    · exact ⟨first, hfirst⟩
    · refine ⟨first ++ [(r, (Source.read r (f.approach s).2.source).1)], ?_⟩
      rw [← List.append_assoc, ← hfirst]
      rfl
  · obtain ⟨calls, hcalls, -⟩ := asks_read (r := r) hd hpass
    exact ⟨calls, hcalls⟩

end Filter

namespace Turn

/-- The status of the latest turn is kept back for as long as there is something to deliver. -/
inductive Waits (max n : Nat) (d : Demultiplexer) : List Turn → Prop where
  /-- Bytes of it are still buffered. -/
  | partly {turn : Turn} {earlier : List Turn} :
      turn.Ongoing n d.input → d.input.buffer ≠ [] → Waits max n d (turn :: earlier)
  /-- Its bytes have been taken, and not in vain. -/
  | fully {turn : Turn} {earlier : List Turn} :
      d.input.buffer = [] → d.feed.hasData = true → d.input.last = turn.reply.status →
      turn.Quiet → ¬ turn.Vain max n earlier → Waits max n d (turn :: earlier)

/-- The consumer has been told about the latest turn, and there is nothing to deliver. -/
structure Told (max n : Nat) (d : Demultiplexer) (turns : List Turn) : Prop where
  buffer : d.input.buffer = []
  hasData : d.feed.hasData = false
  reported : ∀ turn earlier, turns = turn :: earlier → turn.Reported max n earlier

/-- What the latest turn is like between reads. -/
inductive Rests (max n : Nat) (f : Filter) (turns : List Turn) : Prop where
  | stopped : f.IsStopped → Rests max n f turns
  | told : Told max n f.demux turns → Rests max n f turns
  | waits : f.phase = .active → Waits max n f.demux turns → Rests max n f turns

/-- The turns account for what a filter has read and answered. -/
structure Keeps {σ : Type} (max n : Nat) (turns : List Turn) (f : Filter) (out : Bytes)
    (s : Recorded σ) : Prop where
  sound : f.Sound Recorded.Gave max out s
  chunk : f.demux.chunk = n
  given : s.delivered = given turns
  got : out = got turns
  settled : AllSettled max n turns.tail
  rests : Rests max n f turns

section

variable {σ : Type} {max n : Nat} {out : Bytes} {turns turns' : List Turn} {r : ReadRequest}
  {f f' : Filter} {s s' : Recorded σ} {reply : Reply} {a : ReadRequest × Except Violation Reply}

theorem got_begun (h : Begun s turns turns' s') : got turns' = got turns := by
  obtain ⟨calls, -, -, rfl, -⟩ := h
  induction calls generalizing turns with
  | nil => rfl
  | cons call calls ih =>
    rw [List.foldl_cons, ih]
    simp [ask, got]

/-- Nothing has been delivered before the first turn. -/
theorem out_eq_nil (h : f.demux.Traces Recorded.Gave max out s) (hs : s.delivered = []) :
    out = [] := by
  obtain ⟨taken, htells, hgave⟩ := h
  have htaken : taken = [] := (List.append_eq_nil_iff.mp (hgave.symm.trans hs)).1
  have hprefix := htells.feed.inTurn.prefix_flatMap
  rw [htaken, Transcript.ofBytes_nil] at hprefix
  exact List.prefix_nil.mp hprefix

theorem Waits.tell (h : Waits max n d turns) (ha : ∀ e, ¬ Session.SaysError e a.2) :
    Waits max n d (tell a turns) := by
  cases h with
  | partly ho hb =>
    exact .partly { last := ho.last, quiet := ho.quiet.tell fun e _ => ha e, cut := ho.cut } hb
  | fully hb hdata hlast hquiet hvain =>
    exact .fully hb hdata hlast (hquiet.tell fun e _ => ha e) hvain

/-- What the consumer is told by a filter that does not pump changes nothing. -/
theorem Rests.tell (h : Rests max n f turns)
    (ha : f.phase = .active → ∀ e, ¬ Session.SaysError e a.2) :
    Rests max n f (tell a turns) := by
  cases h with
  | stopped hf => exact .stopped hf
  | told ht =>
    refine .told { buffer := ht.buffer, hasData := ht.hasData, reported := ?_ }
    intro turn earlier heq
    cases turns with
    | nil => simp [Turn.tell] at heq
    | cons turn' earlier' =>
      obtain ⟨rfl, rfl⟩ := List.cons.inj heq
      exact (ht.reported turn' earlier' rfl).tell
  | waits hp hw => exact .waits hp (hw.tell (ha hp))

/-- An answer after which everything has been delivered tells how the latest turn ended. -/
theorem reports_of_idle {turn : Turn} {earlier : List Turn} {e : ReadError}
    (hd : f.demux.Traces Recorded.Gave max (got (tell a (turn :: earlier))) s)
    (hs : s.delivered = Turn.given (turn :: earlier)) (hb : f.demux.input.buffer = [])
    (herr : f.demux.feed.hasError = false) (hdata : f.demux.feed.hasData = false)
    (ha : Session.SaysError e a.2) :
    Reports max e { turn with told := turn.told ++ [a] } earlier := by
  obtain ⟨taken, htells, hgave⟩ := hd
  have htaken : taken = Turn.given (turn :: earlier) := by
    rw [← hs, ← hgave.symm, hb, List.append_nil]
  refine ⟨turn.told, a, [], rfl, ha, ?_⟩
  have hidle := htells.feed.all_of_idle (Transcript.coherent_requests _) herr hdata
  rw [htaken] at hidle
  exact hidle.2

/-- An answer after a pump has stopped tells how the latest turn ended, or delivers bytes before
that. -/
theorem Stops.answers (hs : Stops max n f.demux turns) (ha : Filter.Answers r f reply f')
    (hp : f.phase = .active)
    (hd : f'.demux.Traces Recorded.Gave max (got (tell (r, .ok reply) turns)) s)
    (hgiven : s.delivered = Turn.given turns) :
    f'.IsStopped ∨ Told max n f'.demux (tell (r, .ok reply) turns) ∨
      f'.phase = .active ∧ Waits max n f'.demux (tell (r, .ok reply) turns) ∧
        reply.output.bytes ≠ [] := by
  have hok (bs : Bytes) (e : ReadError) : ¬ Session.SaysError e (.ok (Reply.ok bs)) := by
    simp [Session.SaysError, Reply.ok]
  have hbytes {bs : Bytes} (hne : bs ≠ []) : (Reply.ok bs).output.bytes ≠ [] := by
    simpa [Reply.ok] using hne
  cases hs with
  | broken hf => exact Or.inl (ha.isStopped hf)
  | @partly turn earlier ho hb hdata =>
    cases ha with
    | broken => exact Or.inl (Or.inl ⟨_, rfl⟩)
    | @more bs _ hne =>
      have hw : Waits max n (f.drained r).demux (turn :: earlier) := .partly ho hb
      exact Or.inr (Or.inr ⟨hp, hw.tell (hok bs), hbytes hne⟩)
    | @settled bs _ _ _ hwhy _ _ hset =>
      obtain ⟨rfl, rfl⟩ := hset.of_buffered hb
      have hne : bs ≠ [] := (hwhy.resolve_right (by simp [hdata])).2
      have hw : Waits max n (f.drained r).demux (turn :: earlier) := .partly ho hb
      exact Or.inr (Or.inr ⟨hp, hw.tell (hok bs), hbytes hne⟩)
  | @fully turn earlier hb hlast hquiet hvain =>
    cases ha with
    | broken => exact Or.inl (Or.inl ⟨_, rfl⟩)
    | @more bs _ hne _ hmore =>
      have hw : Waits max n (f.drained r).demux (turn :: earlier) :=
        .fully hb hmore hlast hquiet hvain
      exact Or.inr (Or.inr ⟨hp, hw.tell (hok bs), hbytes hne⟩)
    | settled _ _ _ hmore hset =>
      have hdemux : f'.demux = (f.drained r).demux := hset.frame.2.1
      have hbuffer : f'.demux.input.buffer = [] := by
        rw [hdemux]
        exact hb
      have hnone : f'.demux.feed.hasData = false := by
        rw [hdemux]
        exact hmore
      cases herr : f'.demux.feed.hasError with
      | true => exact Or.inl (Or.inr (Or.inr herr))
      | false =>
        refine Or.inr (Or.inl { buffer := hbuffer, hasData := hnone, reported := ?_ })
        rintro _ _ ⟨⟩ e he
        exact ⟨hvain, reports_of_idle hd hgiven hbuffer herr hnone
          (hset.status hb (hlast.trans he))⟩

/-- When the consumer has been told about the latest turn, all turns are settled. -/
theorem Keeps.allSettled (h : Keeps max n turns f out s) (ht : Told max n f.demux turns) :
    AllSettled max n turns := by
  cases turns with
  | nil => exact fun turn earlier hs => absurd (List.suffix_nil.mp hs) (by simp)
  | cons turn earlier => exact h.settled.cons (Or.inl (ht.reported turn earlier rfl))

/-- A turn that was not in vain and of which nobody was told is not settled. -/
theorem not_settled {turn : Turn} {earlier : List Turn} {e : ReadError} (hquiet : turn.Quiet)
    (hvain : ¬ turn.Vain max n earlier) (he : turn.reply.status = .failed e) :
    ¬ turn.Settled max n earlier := by
  rintro (htold | ⟨hin, -⟩)
  · obtain ⟨-, before, said, after, hall, hsaid, -⟩ := htold e he
    exact hquiet e he said (by simp [hall]) hsaid
  · exact hvain hin

theorem calls_tell (a : ReadRequest × Except Violation Reply) (turns : List Turn) :
    ((tell a turns).map fun turn => (turn.request, turn.reply)).reverse =
      (turns.map fun turn => (turn.request, turn.reply)).reverse := by
  cases turns <;> rfl

theorem calls_foldl_ask (calls : List (ReadRequest × Reply)) (turns : List Turn) :
    ((calls.foldl ask turns).map fun turn => (turn.request, turn.reply)).reverse =
      (turns.map fun turn => (turn.request, turn.reply)).reverse ++ calls := by
  induction calls generalizing turns with
  | nil => simp
  | cons call calls ih =>
    rw [List.foldl_cons, ih]
    simp [ask]

theorem told_foldl_ask (calls : List (ReadRequest × Reply)) (turns : List Turn) :
    turns.reverse.flatMap told = (calls.foldl ask turns).reverse.flatMap told := by
  induction calls generalizing turns with
  | nil => rfl
  | cons call calls ih =>
    rw [List.foldl_cons, ← ih]
    simp [ask]

/-- Turns come before those that are begun later. -/
theorem suffix_tail_foldl_ask (call : ReadRequest × Reply) (calls : List (ReadRequest × Reply))
    (turns : List Turn) : turns <:+ ((call :: calls).foldl ask turns).tail := by
  induction calls generalizing call turns with
  | nil => exact List.suffix_rfl
  | cons next calls ih => exact (List.suffix_cons _ _).trans (ih next (ask turns call))

/-- While a turn is not settled, no other is begun. -/
theorem Begun.eq_of_not_settled {turn : Turn} {earlier : List Turn}
    (h : Begun s (turn :: earlier) turns' s') (hsettled : AllSettled max n turns'.tail)
    (hopen : ¬ turn.Settled max n earlier) : turns' = turn :: earlier ∧ s' = s := by
  obtain ⟨calls, -, -, rfl, hsame⟩ := h
  cases calls with
  | nil => exact ⟨rfl, hsame rfl⟩
  | cons call calls =>
    exact absurd (hsettled turn earlier (suffix_tail_foldl_ask call calls _)) hopen

/-- What the consumer has got once it has been given an answer. -/
theorem got_tell_begun (hbegun : Begun s turns turns' s') (hgot : out = got turns)
    (hd : f'.demux.Traces Recorded.Gave max (out ++ reply.consumed r) s')
    (hgiven : s'.delivered = Turn.given turns') :
    out ++ reply.consumed r = got (tell (r, .ok reply) turns') := by
  cases turns' with
  | nil => exact out_eq_nil hd hgiven
  | cons turn earlier =>
    rw [got_tell, got_begun hbegun, hgot]
    rfl

variable [Source σ]

/-- Pumping begins turns, all of them settled but perhaps the last. -/
theorem Keeps.pumpUntilReady (h : Keeps max n turns f out s) (hp : f.phase = .active)
    (blocking : Blocking) :
    ∃ turns', Begun s turns turns' (f.demux.pumpUntilReady blocking s).2.1 ∧
      Stopped max n turns' (f.demux.pumpUntilReady blocking s).1
        (f.demux.pumpUntilReady blocking s).2.1 := by
  have hreads (hpumps : Pumps max n out f.demux turns) :
      Reads max n out turns f.demux s :=
    { traces := h.sound.traces, chunk := h.chunk, given := h.given, pumps := hpumps }
  -- a filter that has something to report, or whose input has failed, leaves the source alone
  have hsame (hd : (f.demux.pumpUntilReady blocking s).1 = f.demux.prune ∧
        (f.demux.pumpUntilReady blocking s).2.1 = s)
      (hstops : Stops max n f.demux.prune turns) :
      ∃ turns', Begun s turns turns' (f.demux.pumpUntilReady blocking s).2.1 ∧
        Stopped max n turns' (f.demux.pumpUntilReady blocking s).1
          (f.demux.pumpUntilReady blocking s).2.1 := by
    rw [hd.1, hd.2]
    exact ⟨turns, begun_refl turns s, h.given, h.settled, hstops⟩
  cases h.rests with
  | stopped hf =>
    rcases hf with ⟨cause, hf⟩ | hf | hf
    · simp [hp] at hf
    · exact hsame (Demultiplexer.pumpUntilReady_of_failed blocking s hf) (.broken (Or.inr hf))
    · exact hsame (Demultiplexer.pumpUntilReady_of_ready blocking s (by simp [hf]))
        (.broken (Or.inl ((Feed.hasError_prune _).trans hf)))
  | told ht =>
    exact Reads.pumpUntilReady blocking
      ⟨turns, begun_refl turns s, hreads (.settled ht.buffer ht.hasData (h.allSettled ht))⟩
  | waits _ hw =>
    cases hw with
    | partly ho hb =>
      exact Reads.pumpUntilReady blocking
        ⟨_, begun_refl _ s, hreads (.ongoing ho h.settled fun hempty => absurd hempty hb)⟩
    | fully hb hdata hlast hquiet hvain =>
      exact hsame (Demultiplexer.pumpUntilReady_of_ready blocking s (by simp [hdata]))
        (.fully hb hlast hquiet hvain)

/-- A read that pumps begins turns, and tells how the latest ended, or delivers bytes before
that. -/
theorem Keeps.served (h : Keeps max n turns f out s) (hp : f.phase = .active)
    (hr : r.mode ≠ .init)
    (ha : Filter.Answers r { f with demux := (f.demux.pumpUntilReady r.blocking s).1 } reply f') :
    let s' := (f.demux.pumpUntilReady r.blocking s).2.1
    ∃ turns', Begun s turns turns' s' ∧ s'.delivered = Turn.given turns' ∧
      AllSettled max n turns'.tail ∧
      (f'.IsStopped ∨ Told max n f'.demux (tell (r, .ok reply) turns') ∨
        f'.phase = .active ∧ Waits max n f'.demux (tell (r, .ok reply) turns') ∧
          reply.output.bytes ≠ []) := by
  intro s'
  obtain ⟨turns', hbegun, hstopped⟩ := h.pumpUntilReady hp r.blocking
  have hsound := Filter.Sound.answers
    (f := { f with demux := (f.demux.pumpUntilReady r.blocking s).1 })
    (h.sound.traces.pumpUntilReady r.blocking Recorded.keeps_gave) hp hr ha
  have hd := hsound.traces
  rw [got_tell_begun hbegun h.got hd hstopped.given] at hd
  exact ⟨turns', hbegun, hstopped.given, hstopped.settled,
    hstopped.stops.answers ha hp hd hstopped.given⟩

/-- However a read is handled, the turns account for it. -/
theorem Keeps.handles (h : Keeps max n turns f out s) (hh : Filter.Handles r f s reply f' s') :
    ∃ turns', Begun s turns turns' s' ∧
      Keeps max n (tell (r, .ok reply) turns') f' (out ++ reply.consumed r) s' := by
  have hsound := h.sound.handles Recorded.keeps_gave hh
  have hchunk := hh.chunk.trans h.chunk
  have hkeeps {turns' : List Turn} (hbegun : Begun s turns turns' s')
      (hgiven : s'.delivered = Turn.given turns') (hsettled : AllSettled max n turns'.tail)
      (hrests : Rests max n f' (tell (r, .ok reply) turns')) :
      ∃ turns', Begun s turns turns' s' ∧
        Keeps max n (tell (r, .ok reply) turns') f' (out ++ reply.consumed r) s' := by
    refine ⟨turns', hbegun, ?_⟩
    exact
      { sound := hsound
        chunk := hchunk
        given := hgiven.trans (given_tell _ _).symm
        got := got_tell_begun hbegun h.got hsound.traces hgiven
        settled := by
          rw [tail_tell]
          exact hsettled
        rests := hrests }
  cases hh with
  | served hp _ hr ha =>
    obtain ⟨turns', hbegun, hgiven, hsettled, hrests⟩ := h.served hp hr ha
    refine hkeeps hbegun hgiven hsettled ?_
    rcases hrests with hf | ht | ⟨hp', hw, -⟩
    · exact .stopped hf
    · exact .told ht
    · exact .waits hp' hw
  | gone => exact hkeeps (begun_refl turns s) h.given h.settled (.stopped (Or.inl ⟨_, rfl⟩))
  | asked =>
    refine hkeeps (begun_refl turns s) h.given h.settled (h.rests.tell fun _ e => ?_)
    simp [Session.SaysError, Reply.ok]
  | unselected _ hp | stopped hp | ended hp =>
    refine hkeeps (begun_refl turns s) h.given h.settled (h.rests.tell fun ha => ?_)
    simp [hp] at ha

/-- Finding out which protocol was selected is no turn. -/
theorem Keeps.approach (h : Keeps max n turns f out s) :
    Keeps max n turns (f.approach s).1 out (f.approach s).2 := by
  have hdemux := Filter.demux_approach f s
  refine
    { sound := h.sound.approach Recorded.probeKeeps_gave
      chunk := by
        rw [hdemux]
        exact h.chunk
      given := ?_
      got := h.got
      settled := h.settled
      rests := ?_ }
  · obtain ⟨calls, hcalls, hprobes⟩ := Filter.calls_approach f s
    rw [← h.given, Recorded.delivered, hcalls, List.flatMap_append, ← Recorded.delivered,
      List.flatMap_eq_nil_iff.mpr fun call hcall => by simp [Reply.consumed, hprobes call hcall],
      List.append_nil]
  · by_cases hp : f.phase = .awaitingSelection
    · cases h.rests with
      | stopped hf =>
        refine .stopped (Or.inr ?_)
        rw [hdemux]
        exact hf.resolve_left (by simp [hp])
      | told ht =>
        refine .told ?_
        rw [hdemux]
        exact ht
      | waits hactive => simp [hp] at hactive
    · rw [Filter.approach_of_ne hp]
      exact h.rests

end

end Turn

namespace Session

section

variable {σ : Type} [Source σ]

/-- The turns after an act. -/
def turnsStep (t : Session σ) (turns : List Turn) : Act σ → List Turn
  | .read r =>
    let result := t.filter.read r t.source
    let calls := result.source.calls.drop t.source.calls.length
    Turn.tell (r, result.reply) ((calls.filter (·.1.mode.consumes)).foldl Turn.ask turns)
  | .giveUp | .agree _ | .move _ => turns

/-- The turns once more acts have followed. -/
def turnsAfter : List (Act σ) → Session σ → List Turn → List Turn
  | [], _, turns => turns
  | a :: acts, t, turns => turnsAfter acts (t.step a) (t.turnsStep turns a)

/-- The turns are the reads that took bytes, with all answers from the first of them on. -/
structure Covers (turns : List Turn) (t : Session σ) : Prop where
  calls : t.source.calls.filter (·.1.mode.consumes) =
    (turns.map fun turn => (turn.request, turn.reply)).reverse
  answers : ∃ first, t.answers = first ++ turns.reverse.flatMap Turn.told

theorem Covers.step {t : Session σ} {turns : List Turn} (h : t.Covers turns)
    (hd : t.filter.demux.chunk ≠ 0) (a : Act σ) : (t.step a).Covers (t.turnsStep turns a) := by
  cases a with
  | giveUp | agree | move => exact ⟨h.calls, h.answers⟩
  | read r =>
    obtain ⟨calls, hcalls⟩ := Filter.exists_calls_read hd r t.source
    obtain ⟨first, hfirst⟩ := h.answers
    have hturns : t.turnsStep turns (.read r) =
        Turn.tell (r, (t.filter.read r t.source).reply)
          ((calls.filter (·.1.mode.consumes)).foldl Turn.ask turns) := by
      rw [turnsStep, hcalls, List.drop_left]
    rw [hturns]
    constructor
    · rw [Turn.calls_tell, Turn.calls_foldl_ask, ← h.calls, ← List.filter_append, ← hcalls]
      rfl
    · have htold := Turn.told_foldl_ask (calls.filter (·.1.mode.consumes)) turns
      generalize (calls.filter (·.1.mode.consumes)).foldl Turn.ask turns = turns' at htold ⊢
      cases turns' with
      | nil => exact ⟨_, (List.append_nil _).symm⟩
      | cons turn earlier =>
        rw [htold] at hfirst
        exact ⟨first, by simp [Session.step, hfirst, Turn.tell]⟩

theorem Covers.run {t : Session σ} {turns : List Turn} (h : t.Covers turns)
    (hd : t.filter.demux.chunk ≠ 0) (acts : List (Act σ)) :
    (t.run acts).Covers (t.turnsAfter acts turns) := by
  induction acts generalizing t turns with
  | nil => exact h
  | cons a acts ih =>
    refine ih (h.step hd a) ?_
    rw [chunk_step]
    exact hd

/-- The turns account for all that has happened, unless the connection is passed through. -/
def Accounts (max n : Nat) (turns : List Turn) (t : Session σ) : Prop :=
  t.filter.phase ≠ .passThrough → Turn.Keeps max n turns t.filter t.consumed t.source

variable {t : Session σ} {max n : Nat} {turns : List Turn}

/-- A read that is not passed on adds the turns that it has begun, and tells the latest. -/
theorem turnsStep_read {r : ReadRequest} {reply : Reply} {turns' : List Turn}
    (hreply : (t.filter.read r t.source).reply = .ok reply)
    (h : Turn.Begun (t.filter.approach t.source).2 turns turns'
      (t.filter.read r t.source).source) :
    t.turnsStep turns (.read r) = Turn.tell (r, .ok reply) turns' := by
  obtain ⟨calls, hcalls, hbytes, rfl, -⟩ := h
  obtain ⟨probes, hprobes, hnone⟩ := Filter.calls_approach t.filter t.source
  have hnew : (t.filter.read r t.source).source.calls.drop t.source.calls.length =
      probes ++ calls := by
    rw [hcalls, hprobes, List.append_assoc, List.drop_left]
  have hprobing : probes.filter (·.1.mode.consumes) = [] := by
    rw [List.filter_eq_nil_iff]
    exact fun call hcall => by simp [hnone call hcall]
  have htaking : calls.filter (·.1.mode.consumes) = calls := by
    rw [List.filter_eq_self]
    exact fun call hcall => by simp [hbytes call hcall, ReadMode.consumes]
  rw [turnsStep, hreply, hnew, List.filter_append, hprobing, htaking, List.nil_append]

theorem Accounts.read (h : t.Accounts max n turns) (r : ReadRequest) :
    (t.step (.read r)).Accounts max n (t.turnsStep turns (.read r)) := by
  intro hp
  have hkeeps := (h (phase_ne_of_step hp)).approach
  obtain ⟨reply, hreply, hh⟩ :=
    Filter.handles_read (r := r) fun hpass => hp (Filter.phase_read_of_answering hpass)
  obtain ⟨turns', hbegun, hafter⟩ := hkeeps.handles hh
  rw [turnsStep_read hreply hbegun, consumed_step_read hreply]
  exact hafter

theorem Accounts.step (h : t.Accounts max n turns) (a : Act σ) :
    (t.step a).Accounts max n (t.turnsStep turns a) := by
  cases a with
  | read r => exact h.read r
  | giveUp | agree | move =>
    intro hp
    have hk := h hp
    exact
      { sound := { traces := hk.sound.traces, done := hk.sound.done, cause := hk.sound.cause }
        chunk := hk.chunk, given := hk.given, got := hk.got, settled := hk.settled
        rests := by
          cases hk.rests with
          | stopped hf => exact .stopped hf
          | told ht => exact .told ht
          | waits hp hw => exact .waits hp hw }

theorem Accounts.run (h : t.Accounts max n turns) (acts : List (Act σ)) :
    (t.run acts).Accounts max n (t.turnsAfter acts turns) := by
  induction acts generalizing t turns with
  | nil => exact h
  | cons a acts ih => exact ih (h.step a)

omit [Source σ] in
theorem accounts_start (context : ConnectionContext) (c : FilterConfig) (s : σ) :
    (start context c s).Accounts c.maxPayloadSize (Nat.max c.readChunkSize 1) [] := by
  intro hp
  exact
    { sound := sound_start context c s hp
      chunk := rfl
      given := rfl
      got := rfl
      settled := fun turn earlier hs => absurd (List.suffix_nil.mp hs) (by simp)
      rests := .told { buffer := rfl, hasData := rfl, reported := nofun } }

/-- A consumer that goes on to read whatever there is. -/
def readOn (k : Nat) : List (Act σ) := List.replicate k (.read ⟨.bytes, .block, 0⟩)

/-- Whoever reads on is told how the latest turn ended, unless the filter cannot go on. -/
def WillReport (max : Nat) (e : ReadError) (turn : Turn) (earlier : List Turn) (t : Session σ) :
    Prop :=
  ∃ k told, t.turnsAfter (readOn k) (turn :: earlier) = { turn with told } :: earlier ∧
    ((t.run (readOn k)).filter.IsStopped ∨ Turn.Reports max e { turn with told } earlier)

/-- One more read of a filter that has kept the status of the latest turn back. -/
theorem Accounts.waits_step {turn : Turn} {earlier : List Turn} {e : ReadError}
    (h : t.Accounts max n (turn :: earlier)) (hp : t.filter.phase = .active)
    (hd : t.filter.isDisturbed t.source = false) (he : turn.reply.status = .failed e)
    (hquiet : turn.Quiet) (hvain : ¬ turn.Vain max n earlier) :
    let after := t.step (.read ⟨.bytes, .block, 0⟩)
    ∃ told, t.turnsStep (turn :: earlier) (.read ⟨.bytes, .block, 0⟩) =
        { turn with told } :: earlier ∧
      (after.filter.IsStopped ∨ Turn.Reports max e { turn with told } earlier ∨
        after.filter.phase = .active ∧ after.filter.isDisturbed after.source = false ∧
          Filter.Advances t.filter after.filter t.source after.source) := by
  intro after
  have hphase : t.filter.phase ≠ .awaitingSelection ∧ t.filter.phase ≠ .passThrough := by
    simp [hp]
  have hr : ReadMode.bytes ≠ .init := by decide
  obtain ⟨reply, hreply, hh⟩ := Filter.Demuxes.handles hphase ⟨.bytes, .block, 0⟩ t.source
  obtain ⟨ha, hsource⟩ := hh.answers hp hd hr
  obtain ⟨turns', hbegun, -, hsettled, hrests⟩ := (h hphase.2).served hp hr ha
  rw [← hsource] at hbegun
  obtain ⟨rfl, hsame⟩ := hbegun.eq_of_not_settled hsettled (Turn.not_settled hquiet hvain he)
  have hturns : t.turnsStep (turn :: earlier) (.read ⟨.bytes, .block, 0⟩) =
      Turn.tell (⟨.bytes, .block, 0⟩, .ok reply) (turn :: earlier) := by
    refine turnsStep_read hreply ?_
    rw [Filter.approach_of_ne hphase.1]
    exact hbegun
  refine ⟨_, hturns, ?_⟩
  rcases hrests with hstopped | htold | ⟨hactive, -, hbytes⟩
  · exact Or.inl hstopped
  · exact Or.inr (Or.inl (htold.reported _ _ rfl e he).2)
  · refine Or.inr (Or.inr ⟨hactive, ?_, Filter.advances_of_read rfl hreply hbytes⟩)
    have hcontext : after.filter.context = t.filter.context := ha.frame.2.2
    have hkept : after.source = t.source := hsame
    rw [Filter.isDisturbed, hcontext, hkept]
    exact hd

/-- Reading on comes to an end, so a status that was kept back is told in the end. -/
theorem Accounts.willReport {t : Session σ} {turn : Turn} {earlier : List Turn} {e : ReadError}
    (h : t.Accounts max n (turn :: earlier)) (hp : t.filter.phase = .active)
    (hd : t.filter.isDisturbed t.source = false) (he : turn.reply.status = .failed e)
    (hvain : ¬ turn.Vain max n earlier) : t.WillReport max e turn earlier := by
  have hrests := (h (by simp [hp])).rests
  cases hrests with
  | stopped hf => exact ⟨0, turn.told, rfl, Or.inl hf⟩
  | told ht => exact ⟨0, turn.told, rfl, Or.inr (ht.reported turn earlier rfl e he).2⟩
  | waits _ hw =>
    have hquiet : turn.Quiet := by
      cases hw with
      | partly ho => exact ho.quiet
      | fully _ _ _ hquiet => exact hquiet
    obtain ⟨told, hturns, hcases⟩ := h.waits_step hp hd he hquiet hvain
    rcases hcases with hstopped | hreports | ⟨hp', hd', hadvances⟩
    · exact ⟨1, told, hturns, Or.inl hstopped⟩
    · exact ⟨1, told, hturns, Or.inr hreports⟩
    · have hnext := h.step (.read ⟨.bytes, .block, 0⟩)
      rw [hturns] at hnext
      obtain ⟨k, told', hlater, hends⟩ := hnext.willReport hp' hd' he hvain
      refine ⟨k + 1, told', ?_, hends⟩
      rw [readOn, List.replicate_succ, turnsAfter, hturns]
      exact hlater
termination_by (t.filter.demux.remaining t.source, t.filter.demux.feed.held)
decreasing_by
  rcases hadvances with hlt | ⟨heq, hlt⟩
  · exact Prod.Lex.left _ _ hlt
  · rw [heq]
    exact Prod.Lex.right _ hlt

/-- What becomes of the status of a read that failed. -/
structure Returned (max n : Nat) (turns : List Turn) (e : ReadError) (turn : Turn)
    (earlier : List Turn) (t : Session σ) : Prop where
  /-- Before the source is read again, the consumer is told after all that came with the read,
  exactly when the read was not in vain. -/
  before : ∀ next, next :: turn :: earlier <:+ turns →
    (turn.Reports max e earlier ↔ ¬ turn.Vain max n earlier)
  /-- After a read in vain, nobody is told at all. -/
  swallowed : ∀ next, next :: turn :: earlier <:+ turns → turn.Vain max n earlier →
    ∀ a ∈ turn.told, ¬ SaysError e a.2
  /-- As long as the source has not been read again, a filter that can go on has told, or will. -/
  latest : turns = turn :: earlier → ¬ turn.Vain max n earlier →
    t.filter.IsStopped ∨ turn.Reports max e earlier ∨
      t.filter.phase = .active ∧
        (t.filter.isDisturbed t.source = false → t.WillReport max e turn earlier)

theorem Accounts.returned (h : t.Accounts max n turns) (hp : t.filter.phase ≠ .passThrough)
    {turn : Turn} {earlier : List Turn} {e : ReadError} (he : turn.reply.status = .failed e) :
    t.Returned max n turns e turn earlier := by
  have hk := h hp
  -- a turn that is followed by another is settled
  have hsettled (next : Turn) (hs : next :: turn :: earlier <:+ turns) :
      turn.Settled max n earlier := by
    obtain ⟨later, rfl⟩ := hs
    refine hk.settled turn earlier ?_
    cases later with
    | nil => exact List.suffix_rfl
    | cons first later => exact ⟨later ++ [next], by simp⟩
  constructor
  · intro next hs
    rcases hsettled next hs with htold | ⟨hvain, hquiet⟩
    · exact ⟨fun _ => (htold e he).1, fun _ => (htold e he).2⟩
    · refine ⟨fun ⟨before, said, after, hall, hsaid, _⟩ => ?_, fun hnot => absurd hvain hnot⟩
      exact absurd hsaid (hquiet e he said (by simp [hall]))
  · intro next hs hvain
    rcases hsettled next hs with htold | ⟨-, hquiet⟩
    · exact absurd hvain (htold e he).1
    · exact hquiet e he
  · rintro rfl hvain
    cases hk.rests with
    | stopped hf => exact Or.inl hf
    | told ht => exact Or.inr (Or.inl (ht.reported turn earlier rfl e he).2)
    | waits hactive => exact Or.inr (Or.inr ⟨hactive, fun hd => h.willReport hactive hd he hvain⟩)

/--
Whatever happens on a connection that is not passed through: how a read of the source failed is
told to the consumer after all that came with the read and before the source is read again, unless
the filter cannot go on, exactly when the read was not in vain.
-/
theorem returned_iff (context : ConnectionContext) (c : FilterConfig) (s : σ)
    (acts : List (Act σ)) :
    let t := (start context c s).run acts
    let turns := (start context c s).turnsAfter acts []
    t.filter.phase ≠ .passThrough →
      t.Covers turns ∧ ∀ e turn earlier, turn.reply.status = .failed e →
        t.Returned c.maxPayloadSize (Nat.max c.readChunkSize 1) turns e turn earlier := by
  intro t turns hp
  have hchunk : (start context c s).filter.demux.chunk ≠ 0 :=
    Nat.ne_of_gt (Nat.le_max_right c.readChunkSize 1)
  refine ⟨Covers.run ⟨rfl, [], rfl⟩ hchunk acts, fun e turn earlier he => ?_⟩
  exact ((accounts_start context c s).run acts).returned hp he

end

/-- A request comes together with a failure, and another request follows. -/
def interrupted : Session ScriptedSource :=
  start { protocol := .multiplexed } {}
    { script :=
        [.answer (Brigade.ofBytes (Frame.opening 1 "/a" 1).bytes) (.failed .general),
          .answer (Brigade.ofBytes (Frame.opening 3 "/b" 1).bytes) (.failed .eof)] }

/-- The first part of the request is delivered, then the rest of it with the failure, and only then
is the source read again. -/
theorem interrupted_returned :
    let acts : List (Act ScriptedSource) :=
      [.read ⟨.bytes, .block, 5⟩, .read ⟨.bytes, .block, 0⟩, .read ⟨.bytes, .block, 0⟩]
    let t := interrupted.run acts
    ∃ next turn, interrupted.turnsAfter acts [] = [next, turn] ∧
      turn.reply.status = .failed .general ∧ ¬ turn.Vain Frame.defaultMaxPayload 8192 [] ∧
      t.filter.phase ≠ .passThrough ∧ turn.Reports Frame.defaultMaxPayload .general [] := by
  intro acts t
  have hp : t.filter.phase ≠ .passThrough := by decide +kernel
  have hlength : (interrupted.turnsAfter acts []).length = 2 := by decide +kernel
  have hstatus : (interrupted.turnsAfter acts [])[1]?.map (·.reply.status) =
      some (.failed .general) := by decide +kernel
  have hvain : (interrupted.turnsAfter acts [])[1]?.map
      (fun turn => decide (turn.Vain Frame.defaultMaxPayload 8192 [])) = some false := by
    decide +kernel
  generalize hturns : interrupted.turnsAfter acts [] = turns at hlength hstatus hvain
  obtain ⟨next, turn, rfl⟩ : ∃ next turn, turns = [next, turn] := by
    match turns, hlength with
    | [next, turn], _ => exact ⟨next, turn, rfl⟩
  have he : turn.reply.status = .failed .general := by simpa using hstatus
  have hnot : ¬ turn.Vain Frame.defaultMaxPayload 8192 [] := by simpa using hvain
  have hreturned := (returned_iff { protocol := .multiplexed } {} _ acts hp).2 _ turn [] he
  have hfollowed : [next, turn] <:+ interrupted.turnsAfter acts [] :=
    hturns.symm ▸ List.suffix_rfl
  exact ⟨next, turn, rfl, he, hnot, hp, (hreturned.before next hfollowed).mpr hnot⟩

/-- The beginning of a frame comes together with a failure. -/
def torn : Session ScriptedSource :=
  start { protocol := .multiplexed } {} (.ofBytes [0x4d, 0x58] (.failed .general))

/-- The source is read again in the same read, and nobody is told of the failure. -/
theorem torn_swallowed :
    let acts : List (Act ScriptedSource) := [.read ⟨.bytes, .block, 0⟩, .read ⟨.bytes, .block, 0⟩]
    let t := torn.run acts
    (t.source.calls.map fun call => (call.1.mode, call.2.status)) =
        [(.speculative, .ok), (.bytes, .failed .general), (.bytes, .failed .eof)] ∧
      (∀ a ∈ t.answers, ¬ SaysError .general a.2) ∧
      t.filter.phase = .exhausted ∧ t.filter.demux.failed = false ∧
      t.filter.demux.feed.hasError = false := by
  decide +kernel

end Session
end RequestFeed
