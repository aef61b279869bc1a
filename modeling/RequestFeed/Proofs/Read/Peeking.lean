import RequestFeed.Proofs.Filter.Progress
import RequestFeed.Proofs.Read.Conservation
import RequestFeed.Proofs.Request.Accumulating
/-!
# Peeking

A speculative read shows bytes and leaves them where they are. Accumulators, sources over readers
and filters answer it in ways of their own: a filter may take, decode and release much before it
answers. When all is well afterwards, each of them holds bytes, and what it shows is the front of
them; so the next read of bytes gets the same, and nothing behind is asked.

*Specification.* `Foretells`: what has been shown is shown again, and then got.

*Results.*
* `Accumulator.foretells` and `Lookahead.foretells`: once bytes are held.
* `Filter.Answers.hasData_of_ok`: a filter that finds all well has bytes to deliver, or has
  delivered some.
* `Filter.foretells`: once there are bytes to deliver.
* `peek_foretells`: all three, in every state that can be reached.
-/

namespace RequestFeed

/-! ### Peeks -/

section

variable {α β : Type} (read : ReadRequest → α → Except Violation Reply × α)

/-- Peeks with the same limit, one after the other, with their answers. -/
def peeks (limit : Nat) : List Blocking → α → List (Except Violation Reply) × α
  | [], s => ([], s)
  | blocking :: rest, s =>
    let first := read ⟨.speculative, blocking, limit⟩ s
    (first.1 :: (peeks limit rest first.2).1, (peeks limit rest first.2).2)

/-- What a peek has shown is what comes next. -/
structure Foretells (behind : α → β) (limit : Nat) (reply : Reply) (s : α) : Prop where
  shown : ∃ bs, bs ≠ [] ∧ reply = Reply.ok bs
  /-- More peeks show the same, and change nothing. -/
  again : ∀ blockings, peeks read limit blockings s = (blockings.map fun _ => .ok reply, s)
  /-- A read of bytes gets what was shown, and asks nobody behind for more. -/
  gets : ∀ blocking, ∃ got, (read ⟨.bytes, blocking, limit⟩ s).1 = .ok got ∧
    got.output = reply.output ∧ behind (read ⟨.bytes, blocking, limit⟩ s).2 = behind s

variable {read} {behind : α → β} {limit : Nat} {reply : Reply} {s : α}

/-- A peek that changes nothing can be repeated. -/
theorem peeks_of_same
    (h : ∀ blocking, read ⟨.speculative, blocking, limit⟩ s = (.ok reply, s))
    (blockings : List Blocking) :
    peeks read limit blockings s = (blockings.map fun _ => .ok reply, s) := by
  induction blockings with
  | nil => rfl
  | cons blocking rest ih => simp only [peeks, h, ih, List.map_cons]

end

/-! ### Accumulators -/

namespace Accumulator

/-- An accumulator has room for every request. -/
def ask (r : ReadRequest) (a : Accumulator) : Except Violation Reply × Accumulator :=
  (.ok (a.read r).1, (a.read r).2)

variable {a : Accumulator}

/-- A read that is limited shows or takes the first bytes that are held. -/
theorem read_of_held {r : ReadRequest} (ha : a.held.bytes ≠ [])
    (hr : r.mode = .bytes ∨ r.mode = .speculative) :
    (a.read r).1 = Reply.ok (Bytes.limited r.limit a.held.bytes) := by
  have hmode : r.mode ≠ .init := by rcases hr with hr | hr <;> simp [hr]
  obtain ⟨bs, hreply, hportion⟩ := (answers_read r a).exists_portion hmode ha
  rw [hreply, hportion.limited hr]

theorem foretells (ha : a.held.bytes ≠ []) (limit : Nat) :
    Foretells ask (fun _ => ()) limit (Reply.ok (Bytes.limited limit a.held.bytes)) a where
  shown := ⟨_, Bytes.limited_ne_nil ha limit, rfl⟩
  again := peeks_of_same fun blocking => by
    rw [ask, read_of_held ha (Or.inr rfl), (reads_read _ a).peeked rfl]
  gets blocking := ⟨_, congrArg Except.ok (read_of_held ha (Or.inl rfl)), rfl, rfl⟩

/-- A peek that finds all well shows the first bytes that are held. -/
theorem Answers.of_peek {r : ReadRequest} {after : Accumulator} {reply : Reply}
    (h : Answers r a reply after) (hr : r.mode = .speculative) (hok : reply.status = .ok) :
    a.held.bytes ≠ [] ∧ reply = Reply.ok (Bytes.limited r.limit a.held.bytes) ∧ after = a := by
  have hafter := h.reads.peeked (by rw [hr]; rfl)
  cases h with
  | idle hinit => simp [hr] at hinit
  | nothing => simp [Reply.failed] at hok
  | given _ hportion =>
    refine ⟨fun hnone => ?_, by rw [hportion.limited (Or.inr hr)], hafter⟩
    exact hportion.ne_nil (List.prefix_nil.mp (hnone ▸ hportion.front))

end Accumulator

/-! ### Sources over readers -/

namespace Lookahead

variable {ρ : Type} [Reader ρ]

/-- A source that holds bytes shows the first of them, or takes them out. -/
theorem ask_of_held {s : Lookahead ρ} (hs : s.held.bytes ≠ []) {r : ReadRequest}
    (hr : r.mode = .bytes ∨ r.mode = .speculative) :
    Source.ask r s = (.ok (Reply.ok (Bytes.limited r.limit s.held.bytes)),
      s.serving r (Bytes.limited r.limit s.held.bytes)) := by
  have hsome : s.held.isEmpty = false := by
    rw [← Bool.not_eq_true, ByteQueue.isEmpty_eq_true_iff]
    exact hs
  have hroom : Source.violation r s = none := by
    rcases hr with hr | hr <;> simp [Source.violation, violation, hr, hsome]
  rw [Source.ask_of_room hroom]
  rcases hr with hr | hr <;>
    simp [Source.read, read, hr, withSome, hsome, serve, peek, serving, ReadMode.consumes]

theorem foretells {s : Lookahead ρ} (hs : s.held.bytes ≠ []) (limit : Nat) :
    Foretells Source.ask Lookahead.reader limit (Reply.ok (Bytes.limited limit s.held.bytes)) s
    where
  shown := ⟨_, Bytes.limited_ne_nil hs limit, rfl⟩
  again := peeks_of_same fun blocking => ask_of_held hs (Or.inr rfl)
  gets blocking := by
    rw [ask_of_held hs (Or.inl rfl)]
    exact ⟨_, rfl, rfl, rfl⟩

/-- A peek that finds all well leaves bytes that are held, and has shown the first of them. -/
theorem Served.of_peek {r : ReadRequest} {s t : Lookahead (Logged ρ)} {asked : Reader.Script}
    {reply : Reply} (h : Served r s asked reply t) (hr : r.mode = .speculative)
    (hok : reply.status = .ok) :
    t.held.bytes ≠ [] ∧ reply = Reply.ok (Bytes.limited r.limit t.held.bytes) := by
  cases h with
  | idle hinit => simp [hr] at hinit
  | refused => simp [Reply.failed] at hok
  | @delivered t _ bs _ _ hportion =>
    have hsame : t.serving r bs = t := by simp [serving, hr, ReadMode.consumes]
    rw [hsame, ← hportion.limited (Or.inr hr)]
    refine ⟨fun hnone => ?_, rfl⟩
    exact hportion.ne_nil (List.prefix_nil.mp (hnone ▸ hportion.front))

end Lookahead

/-! ### Feeds -/

namespace Feed

variable {f : Feed}

/-- Everything that is read of a feed with limits comes from the front of its first request. -/
theorem exists_front (h : f.hasData = true) :
    ∃ held, held ≠ [] ∧ ∀ r : ReadRequest, r.mode = .bytes ∨ r.mode = .speculative →
      (f.drain r).reply = .ok (Reply.ok (Bytes.limited r.limit held)) := by
  obtain ⟨s, rest, hs, -, -, hheld⟩ := head_of_hasData h
  refine ⟨s.projection.output.held.bytes, hheld, fun r hr => ?_⟩
  rw [(drain_of_hasData h hs).1, Accumulator.read_of_held hheld hr]

/-- A peek releases what is finished with, and touches nothing else. -/
theorem feed_drain_of_peek {r : ReadRequest} (h : f.hasData = true) (hr : r.mode = .speculative) :
    (f.drain r).feed = f.prune := by
  obtain ⟨s, rest, hs, -⟩ := head_of_hasData h
  have hsame : (s.projection.output.read r).2 = s.projection.output :=
    (Accumulator.reads_read r _).peeked (by rw [hr]; rfl)
  rw [(drain_of_hasData h hs).2, hsame, ← hs]
  exact prune_prune f

theorem reply_drain_prune (f : Feed) (r : ReadRequest) :
    (f.prune.drain r).reply = (f.drain r).reply := by
  unfold drain
  rw [prune_prune]
  dsimp only
  split
  · rfl
  · split
    · split <;> rfl
    · rfl

end Feed

/-! ### Filters -/

namespace Filter

/-- One read of a filter over a source, taken together. -/
def ask {σ : Type} [Source σ] (r : ReadRequest) (state : Filter × σ) :
    Except Violation Reply × (Filter × σ) :=
  ((state.1.read r state.2).reply, (state.1.read r state.2).filter, (state.1.read r state.2).source)

section

variable {r : ReadRequest} {f f' : Filter} {bs : Bytes} {reply : Reply}

/-- Settling decides on the status, and not on what is given. -/
theorem Settles.output (h : Settles f bs reply f') : reply.output = (Reply.ok bs).output := by
  cases h with
  | waiting _ _ hb =>
    rw [hb]
    rfl
  | buffered | well | told | ended => rfl

/-- When pumping has stopped, a filter that finds all well has had bytes to deliver. -/
theorem Answers.hasData_of_ok (h : Answers r f reply f') (hstopped : f.demux.Stopped)
    (hok : reply.status = .ok) : f.demux.feed.hasData = true := by
  cases h with
  | broken => simp [abortReply] at hok
  | more hdata => exact hdata
  | settled herr hdata _ _ hs =>
    rcases hdata with ⟨hdata, -⟩ | ⟨hdata, hfailed, hnil⟩
    · exact hdata
    · have hbuffer : f.demux.input.buffer = [] := by
        simpa [Demultiplexer.Stopped, herr, hdata, hfailed] using hstopped
      cases hs with
      | buffered hne => exact absurd hbuffer hne
      | well _ _ hne => exact absurd hnil hne
      | waiting | told | ended => simp [Reply.failed] at hok

/-- A filter with bytes to deliver answers with the first of them. A peek leaves everything as it
is, once the requests that are finished with have been released. -/
theorem Answers.of_hasData (h : Answers r f reply f') (hdata : f.demux.feed.hasData = true) :
    (∃ found, (f.demux.feed.drain r).reply = .ok found ∧ reply.output = found.output) ∧
      (r.mode = .speculative →
        (f.demux.feed.drain r).reply = .ok reply ∧ f' = { f with demux := f.demux.prune }) := by
  cases h with
  | broken hwhy =>
    have herr := Feed.hasError_eq_false_of_hasData hdata
    simp [herr, hdata] at hwhy
  | more _ _ hreply =>
    refine ⟨⟨_, hreply, rfl⟩, fun hr => ⟨hreply, ?_⟩⟩
    rw [drained, Feed.feed_drain_of_peek hdata hr]
    rfl
  | settled _ _ hreply hmore hs =>
    refine ⟨⟨_, hreply, hs.output⟩, fun hr => ?_⟩
    rw [Feed.feed_drain_of_peek hdata hr, Feed.hasData_prune, hdata] at hmore
    exact absurd hmore (by decide)

end

section

variable {σ : Type} [Source σ] {f : Filter} {s : σ}

/-- An active filter with bytes to deliver answers without asking its source. -/
theorem answers_of_hasData {r : ReadRequest} (hp : f.phase = .active)
    (hdata : f.demux.feed.hasData = true) (hd : f.isDisturbed s = false) (hr : r.mode ≠ .init) :
    ∃ reply, (f.read r s).reply = .ok reply ∧ (f.read r s).source = s ∧
      Answers r { f with demux := f.demux.prune } reply (f.read r s).filter := by
  obtain ⟨hdemux, hsource⟩ := Demultiplexer.pumpUntilReady_of_ready r.blocking s
    (show (f.demux.feed.hasError || f.demux.feed.hasData) = true by simp [hdata])
  obtain ⟨reply, hreply, hhandles⟩ := Demuxes.handles (f := f) (by simp [Demuxes, hp]) r s
  obtain ⟨hanswers, hafter⟩ := hhandles.answers hp hd hr
  rw [hdemux] at hanswers
  exact ⟨reply, hreply, hafter.trans hsource, hanswers⟩

/-- An active filter that has released what is finished with, and has bytes to deliver, shows the
first of them, or delivers them. -/
theorem foretells (hp : f.phase = .active) (hdata : f.demux.feed.hasData = true)
    (hpruned : f.demux.prune = f.demux) (hd : f.isDisturbed s = false) {held : Bytes}
    (hheld : held ≠ [])
    (hfront : ∀ r : ReadRequest, r.mode = .bytes ∨ r.mode = .speculative →
      (f.demux.feed.drain r).reply = .ok (Reply.ok (Bytes.limited r.limit held)))
    (limit : Nat) :
    Foretells ask Prod.snd limit (Reply.ok (Bytes.limited limit held)) (f, s) where
  shown := ⟨_, Bytes.limited_ne_nil hheld limit, rfl⟩
  again := peeks_of_same fun blocking => by
    obtain ⟨reply, hreply, hsource, hanswers⟩ :=
      answers_of_hasData (r := ⟨.speculative, blocking, limit⟩) hp hdata hd nofun
    rw [hpruned] at hanswers
    obtain ⟨hdrain, hfilter⟩ := (hanswers.of_hasData hdata).2 rfl
    rw [hfront _ (Or.inr rfl), Except.ok.injEq] at hdrain
    rw [hpruned] at hfilter
    simp only [ask, hreply, hsource, hfilter, hdrain]
  gets blocking := by
    obtain ⟨reply, hreply, hsource, hanswers⟩ :=
      answers_of_hasData (r := ⟨.bytes, blocking, limit⟩) hp hdata hd nofun
    rw [hpruned] at hanswers
    obtain ⟨found, hdrain, houtput⟩ := (hanswers.of_hasData hdata).1
    rw [hfront _ (Or.inl rfl), Except.ok.injEq] at hdrain
    exact ⟨reply, hreply, houtput.trans (congrArg Reply.output hdrain.symm), hsource⟩

/-- What a peek leaves that finds all well. -/
theorem Handles.of_peek {H : Bytes → Status → σ → Prop} {max : Nat} {out : Bytes}
    {r : ReadRequest} {f' : Filter} {s' : σ} {reply : Reply} (hH : Source.Keeps H)
    (ht : f.demux.Traces H max out s) (h : Handles r f s reply f' s') (hp : f.phase = .active)
    (hr : r.mode = .speculative) (hok : reply.status = .ok) :
    f'.phase = .active ∧ f'.demux.feed.hasData = true ∧ f'.demux.prune = f'.demux ∧
      (f'.demux.feed.drain r).reply = .ok reply := by
  cases h with
  | unselected _ hp' | stopped hp' | ended hp' => simp [hp] at hp'
  | gone => simp [abortReply] at hok
  | asked _ _ hr' => simp [hr] at hr'
  | served _ _ _ ha =>
    -- without bytes to deliver, pumping would have stopped for a reason that is not well
    have hdata := ha.hasData_of_ok (stopped_of_traces hH ht r.blocking) hok
    obtain ⟨hdrain, rfl⟩ := (ha.of_hasData hdata).2 hr
    refine ⟨hp, ?_, ?_, ?_⟩
    · exact (Feed.hasData_prune _).trans hdata
    · simp [Demultiplexer.prune]
    · exact (Feed.reply_drain_prune _ r).trans hdrain

end

end Filter

/-- A peek of a source over a reader. -/
theorem Lookahead.foretells_ask {ρ : Type} [Reader ρ] {s : Lookahead (Logged ρ)} {r : ReadRequest}
    {reply : Reply} (hr : r.mode = .speculative) (hreply : (Source.ask r s).1 = .ok reply)
    (hok : reply.status = .ok) (reader : Logged ρ) :
    Foretells Source.ask Lookahead.reader r.limit reply { (Source.ask r s).2 with reader } := by
  cases hv : Source.violation r s with
  | some v => simp [Source.ask_of_violation hv] at hreply
  | none =>
    rw [Source.ask_of_room hv] at hreply ⊢
    obtain rfl := Except.ok.inj hreply
    obtain ⟨hheld, hshown⟩ := (served_read r s).of_peek hr hok
    rw [show (Source.read r s).1 = _ from hshown]
    exact foretells (s := { (read r s).2 with reader }) hheld r.limit

/-- A peek of an active filter in a session. -/
theorem Session.Sound.foretells {σ : Type} [Source σ] {max : Nat} {t : Session σ}
    (h : t.Sound max) {r : ReadRequest} {reply : Reply} (hr : r.mode = .speculative)
    (hactive : t.filter.answering t.source = .active)
    (hreply : (t.filter.read r t.source).reply = .ok reply) (hok : reply.status = .ok)
    {source : Recorded σ} (hd : (t.filter.read r t.source).filter.isDisturbed source = false) :
    Foretells Filter.ask Prod.snd r.limit reply ((t.filter.read r t.source).filter, source) := by
  have hpass : t.filter.answering t.source ≠ .passThrough := by simp [hactive]
  have hphase : t.filter.phase ≠ .passThrough := by
    intro hp
    rw [Filter.answering, Filter.approach_of_ne (by simp [hp])] at hpass
    exact hpass hp
  obtain ⟨reply', hreply', hhandles⟩ := Filter.handles_read (r := r) hpass
  obtain rfl : reply' = reply := Except.ok.inj (hreply'.symm.trans hreply)
  have htraces := ((h hphase).approach Recorded.probeKeeps_gave).traces
  obtain ⟨hp, hdata, hpruned, hdrain⟩ :=
    hhandles.of_peek Recorded.keeps_gave htraces hactive hr hok
  obtain ⟨held, hheld, hfront⟩ := Feed.exists_front hdata
  rw [hfront r (Or.inr hr), Except.ok.injEq] at hdrain
  rw [← hdrain]
  exact Filter.foretells hp hdata hpruned hd hheld hfront r.limit

/-- Whatever has happened before, a peek that finds all well foretells what comes next: of an
accumulator, of a source over a reader, whatever becomes of the reader, and of an active filter
whose connection is still there, whatever becomes of its source. -/
theorem peek_foretells :
    (∀ (a : Accumulator) (blocking : Blocking) (limit : Nat),
      let peeked := a.read ⟨.speculative, blocking, limit⟩
      peeked.1.status = .ok →
      Foretells Accumulator.ask (fun _ => ()) limit peeked.1 peeked.2) ∧
    (∀ (ρ : Type) [Reader ρ] (s : Lookahead (Logged ρ)) (blocking : Blocking) (limit : Nat)
        (reply : Reply),
      let peeked := Source.ask ⟨.speculative, blocking, limit⟩ s
      peeked.1 = .ok reply → reply.status = .ok → ∀ reader : Logged ρ,
      Foretells Source.ask Lookahead.reader limit reply { peeked.2 with reader }) ∧
    ∀ (σ : Type) [Source σ] (context : ConnectionContext) (c : FilterConfig) (s : σ)
        (acts : List (Act σ)) (blocking : Blocking) (limit : Nat) (reply : Reply),
      let t := (Session.start context c s).run acts
      let peeked := t.filter.read ⟨.speculative, blocking, limit⟩ t.source
      t.filter.answering t.source = .active → peeked.reply = .ok reply → reply.status = .ok →
      ∀ source : Recorded σ, peeked.filter.isDisturbed source = false →
      Foretells Filter.ask Prod.snd limit reply (peeked.filter, source) := by
  refine ⟨?_, ?_, ?_⟩
  · intro a blocking limit peeked hok
    obtain ⟨hheld, hreply, hafter⟩ := (Accumulator.answers_read _ a).of_peek rfl hok
    rw [show peeked.1 = _ from hreply, show peeked.2 = a from hafter]
    exact Accumulator.foretells hheld limit
  · intro ρ _ s blocking limit reply peeked hreply hok reader
    exact Lookahead.foretells_ask rfl hreply hok reader
  · intro σ _ context c s acts blocking limit reply t peeked hactive hreply hok source hd
    exact (Session.sound_run context c s acts).foretells rfl hactive hreply hok hd

/-- Bytes that nobody has read yet. -/
def twoBytes : Accumulator := { held := .ofBytes (Bytes.utf8 "ab") }

/-- A reader that is interrupted once before it gives something. -/
def lateReader : ScriptedReader :=
  ⟨[.failure (.ofKind .interrupted), .bytes (Bytes.utf8 "cd")]⟩

/-- A connection that has just begun, with one request on it. -/
def freshSession : Session ScriptedSource :=
  .start { protocol := .multiplexed } {} (.ofBytes (Frame.opening 1 "/a" 1).bytes .ok)

/-- A peek at bytes that are there, and two that have to get them first: the one calls its reader
twice, and the other selects, pumps, decodes and makes a request. -/
theorem firstPeeks_foretell :
    let r : ReadRequest := ⟨.speculative, .block, 1⟩
    let s : Lookahead (Logged ScriptedReader) := .ofReader lateReader
    let peeked := freshSession.filter.read r freshSession.source
    Foretells Accumulator.ask (fun _ => ()) 1 (Reply.ok (Bytes.utf8 "a")) twoBytes ∧
      (s.held.bytes = [] ∧
        Foretells Source.ask Lookahead.reader 1 (Reply.ok (Bytes.utf8 "c")) (Source.ask r s).2) ∧
      freshSession.filter.demux.feed.hasData = false ∧
      Foretells Filter.ask Prod.snd 1 (Reply.ok (Bytes.utf8 "G"))
        (peeked.filter, peeked.source) := by
  intro r s peeked
  obtain ⟨haccumulator, hreader, hfilter⟩ := peek_foretells
  have hactive : freshSession.filter.answering freshSession.source = .active := by decide +kernel
  have hshown : (Source.ask r s).1 = .ok (Reply.ok (Bytes.utf8 "c")) := by decide +kernel
  have hreply : peeked.reply = .ok (Reply.ok (Bytes.utf8 "G")) := by
    have hsome : peeked.reply.toOption = some (Reply.ok (Bytes.utf8 "G")) := by decide +kernel
    cases hpeeked : peeked.reply with
    | error v => simp [hpeeked, Except.toOption] at hsome
    | ok reply => simpa [hpeeked, Except.toOption] using hsome
  refine ⟨?_, ⟨rfl, ?_⟩, by decide, ?_⟩
  · exact haccumulator twoBytes .block 1 (by decide)
  · exact hreader _ s .block 1 _ hshown rfl (Source.ask r s).2.reader
  · exact hfilter _ _ {} _ [] .block 1 _ hactive hreply rfl peeked.source (by decide +kernel)

end RequestFeed
