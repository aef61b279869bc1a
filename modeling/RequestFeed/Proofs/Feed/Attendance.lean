import RequestFeed.Proofs.Feed.Calls
import RequestFeed.Proofs.Feed.Pumping
import RequestFeed.Proofs.Filter.Session
import RequestFeed.Proofs.Stream.Exchange
/-!
# Attended places

An attendance is an exchange over a feed. The handler of a stream knows the number of the place that
the stream got in the feed, and tells the place what happens. The router decides by itself when a
handler is forgotten, and the request at the place decides by itself when it is finished; between
two frames the feed may be asked and drained.

*Invariant.* `Attendance.Attended`: every request that has not finished is one of a live stream, and
the handler of the stream knows its place. It may know a place that has been released, but never the
place of another stream.

*Results.*
* `Attendance.Attends.tell`: a handler that is told something does what a delivery does.
* `Attendance.Attended.step`: frames, failures, questions and drainings keep the invariant.
* `Attendance.Mirrors.pump`: a pump does what frames and failures do.
* `Attendance.none_orphaned`: no place waits for a stream that has been forgotten.
-/

namespace RequestFeed

namespace Feed

variable {f : Feed} {highest : StreamId}

/-! ### Places -/

/-- An event leaves the places as they were. -/
theorem exists_place_of_mem_step (h : f.Tidy highest) {place : Nat} {e : StreamEvent} {s : Slot}
    (hs : s ∈ (f.step place e).1.slots) :
    ∃ t ∈ f.slots, t.number = s.number ∧ t.projection.stream = s.projection.stream := by
  rw [Feed.step] at hs
  dsimp only at hs
  rw [event_eq_map h.numbers] at hs
  obtain ⟨t, ht, rfl⟩ := List.mem_map.mp hs
  refine ⟨t, ht, ?_⟩
  split
  · simp
  · exact ⟨rfl, rfl⟩

/-- The places of the second feed are places of the first, whose requests have not changed but for
what has been read of them. -/
structure Reads (f g : Feed) : Prop where
  created : g.created = f.created
  slots : ∀ s ∈ g.slots, ∃ t ∈ f.slots, t.number = s.number ∧
    t.projection.stream = s.projection.stream ∧ t.projection.isFinished = s.projection.isFinished

theorem reads_prune (f : Feed) : f.Reads f.prune :=
  ⟨rfl, fun s hs => ⟨s, (List.dropWhile_sublist _).subset hs, rfl, rfl, rfl⟩⟩

theorem Reads.trans {g k : Feed} (h : f.Reads g) (hk : g.Reads k) : f.Reads k := by
  refine ⟨hk.created.trans h.created, fun s hs => ?_⟩
  obtain ⟨t, ht, hnumber, hstream, hfinished⟩ := hk.slots s hs
  obtain ⟨u, hu, hnumber', hstream', hfinished'⟩ := h.slots t ht
  exact ⟨u, hu, hnumber'.trans hnumber, hstream'.trans hstream, hfinished'.trans hfinished⟩

theorem reads_drain (f : Feed) (r : ReadRequest) : f.Reads (f.drain r).feed := by
  have hpruned := reads_prune f
  rcases drain_cases r f with ⟨hfeed, -⟩ | ⟨s, rest, hs, hfeed, -⟩
  · rw [hfeed]
    exact hpruned
  · have hread : f.prune.Reads (f.prune.readHead r s rest) := by
      refine ⟨rfl, List.forall_mem_cons.mpr ⟨⟨s, by simp [hs], rfl, rfl, rfl⟩, ?_⟩⟩
      exact fun t ht => ⟨t, by simp [hs, ht], rfl, rfl, rfl⟩
    rw [hfeed]
    exact (hpruned.trans hread).trans (reads_prune _)

theorem Reads.unfinishedIn {g : Feed} (h : f.Reads g) {live : List StreamId}
    (hl : f.requests.UnfinishedIn live) : g.requests.UnfinishedIn live := by
  intro p hp hfinished
  obtain ⟨s, hs, rfl⟩ := List.mem_map.mp hp
  obtain ⟨t, ht, -, hstream, hsame⟩ := h.slots s hs
  rw [← hstream]
  exact hl t.projection (List.mem_map_of_mem ht) (hsame.trans hfinished)

/-- The handler of a stream knows the number of its place. -/
def attendants : Handling Feed Nat where
  create stream f := (f.created, f.create stream)
  tell e place f := (place, (f.step place e).1)

end Feed

/-! ### What can happen -/

namespace Demultiplexer

variable {σ : Type}

/-- What can happen to a demultiplexer. -/
inductive Use (σ : Type) where
  | pump (blocking : Blocking)
  /-- The source changes, or another one is bound. -/
  | bind (source : σ)
  | ask (query : Feed.Query)
  | drain (request : ReadRequest)

/-- A demultiplexer is used, and perhaps its source. -/
def use [Source σ] (t : Demultiplexer × σ) : Use σ → Demultiplexer × σ
  | .pump blocking => ((t.1.pump blocking t.2).demux, (t.1.pump blocking t.2).source)
  | .bind s => (t.1, s)
  | .ask q => ({ t.1 with feed := (t.1.feed.call (.ask q)).feed }, t.2)
  | .drain r => ({ t.1 with feed := (t.1.feed.call (.drain r)).feed }, t.2)

end Demultiplexer

open Feed (attendants)

/-- An exchange over a feed. -/
abbrev Attendance := Exchange Feed Nat

namespace Attendance

/-! ### Handlers and places -/

/-- What a handler knows is the place of its own stream, if the place is still there. All streams so
far have had numbers up to `highest`. -/
structure Attends (highest : StreamId) (x : Attendance) : Prop where
  tidy : x.shared.Tidy highest
  bounded : ∀ entry ∈ x.handlers, entry.1 ≤ highest ∧ entry.2 < x.shared.created
  place : ∀ entry ∈ x.handlers, ∀ s ∈ x.shared.slots,
    entry.2 = s.number ↔ entry.1 = s.projection.stream

variable {x y : Attendance} {highest : StreamId}

theorem Attends.of_subset (h : x.Attends highest) (htidy : y.shared.Tidy highest)
    (hhandlers : ∀ entry ∈ y.handlers, entry ∈ x.handlers)
    (hcreated : y.shared.created = x.shared.created)
    (hslots : ∀ s ∈ y.shared.slots, ∃ t ∈ x.shared.slots, t.number = s.number ∧
      t.projection.stream = s.projection.stream) : y.Attends highest := by
  constructor
  · exact htidy
  · intro entry hentry
    rw [hcreated]
    exact h.bounded entry (hhandlers entry hentry)
  · intro entry hentry s hs
    obtain ⟨t, ht, hnumber, hstream⟩ := hslots s hs
    rw [← hnumber, ← hstream]
    exact h.place entry (hhandlers entry hentry) t ht

theorem exists_lookup {stream : StreamId} (h : stream ∈ x.live) :
    ∃ place, x.handlers.lookup stream = some place ∧ (stream, place) ∈ x.handlers := by
  cases hlookup : x.handlers.lookup stream with
  | none =>
    obtain ⟨entry, hentry, rfl⟩ := List.mem_map.mp h
    have hdiffers := List.lookup_eq_none_iff.mp hlookup entry hentry
    simp at hdiffers
  | some place =>
    obtain ⟨before, after, heq, -⟩ := List.lookup_eq_some_iff.mp hlookup
    exact ⟨place, rfl, by simp [heq]⟩

/-- The handler of a stream does to the feed what a delivery to the stream does. -/
theorem Attends.step_eq (h : x.Attends highest) {stream : StreamId} {place : Nat}
    (hmem : (stream, place) ∈ x.handlers) (e : StreamEvent) :
    (x.shared.step place e).1 = (x.shared.deliver (.event stream e)).1 := by
  simp only [Feed.deliver]
  cases hplace : x.shared.placeOf? stream with
  | some number =>
    obtain ⟨s, hfound, rfl⟩ := Option.map_eq_some_iff.mp hplace
    have hstream : s.projection.stream = stream := by simpa using List.find?_some hfound
    have hsame := (h.place _ hmem s (List.mem_of_find?_eq_some hfound)).mpr hstream.symm
    dsimp only at hsame ⊢
    rw [hsame]
  | none =>
    -- the place has been released: no other place has its number
    have hgone : place ∉ x.shared.slots.map Slot.number := by
      intro hnumber
      obtain ⟨s, hs, hnumber⟩ := List.mem_map.mp hnumber
      rw [Feed.placeOf?, Option.map_eq_none_iff, List.find?_eq_none] at hplace
      have hstream := (h.place _ hmem s hs).mp hnumber.symm
      exact hplace s hs (by simpa using hstream.symm)
    rw [Feed.step, Feed.event_of_not_mem hgone]

/-- A handler that is told something does what a delivery does. -/
theorem Attends.tell (h : x.Attends highest) {stream : StreamId} (hlive : stream ∈ x.live)
    (e : StreamEvent) :
    (x.tell attendants stream e).shared = (x.shared.deliver (.event stream e)).1 ∧
      Attends highest (x.tell attendants stream e) := by
  obtain ⟨place, hlookup, hmem⟩ := exists_lookup hlive
  have hstep := h.step_eq hmem e
  have htell : x.tell attendants stream e =
      { x with
        shared := (x.shared.step place e).1
        handlers := x.handlers.map fun entry =>
          if entry.1 = stream then (stream, place) else entry } := by
    rw [Exchange.tell, hlookup]
    rfl
  rw [htell]
  refine ⟨hstep, h.of_subset ?_ ?_ rfl ?_⟩
  · rw [hstep]
    exact h.tidy.deliver_event stream e
  · intro entry hentry
    obtain ⟨old, hold, rfl⟩ := List.mem_map.mp hentry
    split
    · exact hmem
    · exact hold
  · exact fun s hs => Feed.exists_place_of_mem_step h.tidy hs

/-- A new stream gets a place that no handler knows yet. -/
theorem Attends.welcome (h : x.Attends highest) {stream : StreamId}
    (hlater : ¬ stream ≤ highest) : Attends stream (x.welcome attendants stream) := by
  have hlt : highest < stream := UInt32.not_le.mp hlater
  constructor
  · exact h.tidy.deliver_created hlater
  · intro entry hentry
    rcases List.mem_append.mp hentry with hold | hnew
    · obtain ⟨hstream, hplace⟩ := h.bounded entry hold
      exact ⟨UInt32.le_of_lt (UInt32.lt_of_le_of_lt hstream hlt), Nat.lt_succ_of_lt hplace⟩
    · rw [List.mem_singleton.mp hnew]
      exact ⟨UInt32.le_refl stream, Nat.lt_succ_self _⟩
  · intro entry hentry s hs
    -- numbers and streams both tell what is new from what was there
    have hslot : s ∈ x.shared.slots ∨
        s.number = x.shared.created ∧ s.projection.stream = stream := by
      rcases List.mem_append.mp hs with hold | hnew
      · exact Or.inl hold
      · rw [List.mem_singleton.mp hnew]
        exact Or.inr ⟨rfl, rfl⟩
    rcases List.mem_append.mp hentry with hold | hnew
    · obtain ⟨hstream, hplace⟩ := h.bounded entry hold
      rcases hslot with hs | ⟨hnumber, hnewStream⟩
      · exact h.place entry hold s hs
      · rw [hnumber, hnewStream]
        refine iff_of_false (Nat.ne_of_lt hplace) fun heq => hlater (heq ▸ hstream)
    · rw [List.mem_singleton.mp hnew]
      rcases hslot with hs | ⟨hnumber, hnewStream⟩
      · refine iff_of_false (Nat.ne_of_gt (h.tidy.number_lt s hs)) fun heq => ?_
        have hle : stream ≤ highest := by
          rw [show stream = s.projection.stream from heq]
          exact h.tidy.stream_le s hs
        exact hlater hle
      · exact iff_of_true hnumber.symm hnewStream.symm

/-- Handlers that are told the same one after the other do what deliveries do. -/
theorem Attends.tell_map (h : x.Attends highest) {streams : List StreamId}
    (hlive : ∀ stream ∈ streams, stream ∈ x.live) (e : StreamEvent) :
    let ds : List Delivery := streams.map fun stream => .event stream e
    (ds.foldl (Exchange.receive attendants) x).shared = (x.shared.deliverAll ds).1 ∧
      Attends highest (ds.foldl (Exchange.receive attendants) x) := by
  induction streams generalizing x with
  | nil => exact ⟨rfl, h⟩
  | cons stream rest ih =>
    obtain ⟨hfirst, hrest⟩ := List.forall_mem_cons.mp hlive
    obtain ⟨hshared, htold⟩ := h.tell hfirst e
    have hothers := ih (x := x.tell attendants stream e) htold (by simpa using hrest)
    rw [hshared] at hothers
    exact hothers

/-! ### The invariant -/

/-- Every request that has not finished is one of a live stream, and what the handler of a live
stream knows is the place of the stream. -/
structure Attended (x : Attendance) : Prop where
  attends : Attends x.highest x
  coherent : x.shared.Coherent
  unfinished : x.shared.requests.UnfinishedIn x.live

theorem attended_new : Attended { shared := {} } where
  attends := ⟨Feed.tidy_new, nofun, nofun⟩
  coherent := Feed.coherent_new
  unfinished := nofun

/-- An exchange that makes deliveries as its router tells it to. -/
theorem Attended.follow {ds : List Delivery} {r : Router} (h : Attended x)
    (hrouter : (x.follow attendants ds r).router = r)
    (hopens : Transcript.Opens x.highest ds r.highest)
    (hunfinished : (x.shared.requests.recordAll ds).UnfinishedIn r.live)
    (hreceived : (ds.foldl (Exchange.receive attendants) x).shared = (x.shared.deliverAll ds).1 ∧
      Attends r.highest (ds.foldl (Exchange.receive attendants) x)) :
    (x.follow attendants ds r).shared = (x.shared.deliverAll ds).1 ∧
      Attended (x.follow attendants ds r) := by
  obtain ⟨hshared, hattends⟩ := hreceived
  obtain ⟨hrequests, htidy⟩ := h.attends.tidy.deliverAll hopens
  refine ⟨hshared, ?_, ?_, ?_⟩
  · refine hattends.of_subset ?_ (fun entry hentry => (List.mem_filter.mp hentry).1) rfl
      fun s hs => ⟨s, hs, rfl, rfl⟩
    exact hattends.tidy
  · rw [Exchange.follow, hshared]
    exact (h.coherent.deliverAll ds).coherent
  · have hlive : (x.follow attendants ds r).live = r.live := congrArg Router.live hrouter
    rw [hlive, Exchange.follow, hshared, hrequests]
    exact hunfinished

/-- A frame that is routed does to the feed what the deliveries of the router do. -/
theorem Attended.routes {ds : List Delivery} {r : Router} (h : Attended x)
    (hr : x.router.Routes ds r) :
    (x.follow attendants ds r).shared = (x.shared.deliverAll ds).1 ∧
      Attended (x.follow attendants ds r) := by
  refine h.follow (Exchange.router_follow hr.exists_live) hr.opens
    (hr.unfinishedIn h.coherent.requests h.unfinished) ?_
  cases hr with
  | silent _ hhighest =>
    rw [hhighest]
    exact ⟨rfl, h.attends⟩
  | @known stream e hlive =>
    rw [Router.highest_settle]
    exact h.attends.tell hlive e
  | @fresh stream e hlater =>
    rw [Router.highest_settle]
    exact (h.attends.welcome hlater).tell (by simp) e

theorem Attended.fail (h : Attended x) :
    (x.fail attendants).shared = (x.shared.deliverAll x.router.fail.1).1 ∧
      Attended (x.fail attendants) := by
  refine h.follow (Exchange.router_fail x) (Transcript.opens_fail x.router) ?_ ?_
  · exact h.unfinished.recordAll_fail h.coherent.requests
  · exact h.attends.tell_map (fun stream hlive => hlive) .connectionFailed

/-- Asking and draining a feed leave its requests as they are, but for what is read of them. -/
theorem Attended.reads {f : Feed} (h : Attended x) (hreads : x.shared.Reads f)
    (hcoherent : f.Coherent) (htidy : f.Tidy x.highest) : Attended { x with shared := f } := by
  constructor
  · refine h.attends.of_subset htidy (fun entry hentry => hentry) hreads.created fun s hs => ?_
    obtain ⟨t, ht, hnumber, hstream, -⟩ := hreads.slots s hs
    exact ⟨t, ht, hnumber, hstream⟩
  · exact hcoherent
  · exact hreads.unfinishedIn h.unfinished

/-- The place of a request that is not complete is known to the handler of its stream. -/
theorem Attended.lookup {s : Slot} (h : Attended x) (hs : s ∈ x.shared.slots)
    (hgrowing : s.projection.output.isComplete = false) :
    s.projection.stream ∈ x.live ∧ x.handlers.lookup s.projection.stream = some s.number := by
  have hfinished : s.projection.isFinished = false := by
    rw [Projection.isFinished_eq_false_iff (h.coherent s hs)]
    simpa [Accumulator.isComplete] using hgrowing
  have hlive := h.unfinished s.projection (List.mem_map_of_mem hs) hfinished
  obtain ⟨place, hlookup, hmem⟩ := exists_lookup hlive
  have hplace : place = s.number := (h.attends.place _ hmem s hs).mpr rfl
  exact ⟨hlive, hplace ▸ hlookup⟩

/-- Where no stream is live, all requests are complete. -/
theorem Attended.isComplete (h : Attended x) (hnone : x.live = []) {s : Slot}
    (hs : s ∈ x.shared.slots) : s.projection.output.isComplete = true := by
  rw [← Bool.not_eq_false]
  intro hgrowing
  have hlive := (h.lookup hs hgrowing).1
  rw [hnone] at hlive
  cases hlive

/-! ### Calls -/

/-- What can happen to an attendance. -/
inductive Act where
  | route (call : RouterCall)
  | ask (query : Feed.Query)
  | drain (request : ReadRequest)
  deriving DecidableEq, Repr

def step (x : Attendance) : Act → Attendance
  | .route c => (x.call attendants c).2
  | .ask q => { x with shared := (x.shared.call (.ask q)).feed }
  | .drain r => { x with shared := (x.shared.call (.drain r)).feed }

/-- Anything that can happen, in order. -/
def run (x : Attendance) (acts : List Act) : Attendance := acts.foldl step x

theorem Attended.step (h : Attended x) (a : Act) : Attended (x.step a) := by
  cases a with
  | route c =>
    cases c with
    | fail => exact h.fail.2
    | dispatch f =>
      rw [Attendance.step, Exchange.call, Exchange.dispatch_eq]
      cases hd : x.router.dispatch f with
      | error cause => exact h
      | ok answer => exact (h.routes (Router.routes_of_dispatch hd)).2
  | ask q => exact h.reads (Feed.reads_prune _) h.coherent.prune.coherent h.attends.tidy.prune
  | drain r =>
    exact h.reads (Feed.reads_drain _ r) (h.coherent.drain r).coherent h.attends.tidy.drain

theorem Attended.run (h : Attended x) (acts : List Act) : Attended (x.run acts) := by
  induction acts generalizing x with
  | nil => exact h
  | cons a acts ih => exact ih (h.step a)

/-! ### Demultiplexers -/

/-- A demultiplexer knows what an attendance knows, and has the same feed. When it has failed, no
stream is live. -/
structure Mirrors (d : Demultiplexer) (x : Attendance) : Prop where
  router : d.router = x.router
  feed : d.feed = x.shared
  failed : d.failed = true → x.live = []

variable {d : Demultiplexer}

theorem Mirrors.fail (h : Mirrors d x) (hx : Attended x) (cause : FrameError) (decoder : Decoder) :
    Mirrors (Demultiplexer.fail cause { d with decoder }).demux (x.run [.route .fail]) := by
  have hsame : x.run [.route .fail] = x.fail attendants := rfl
  rw [hsame]
  constructor
  · rw [Exchange.router_fail, ← h.router]
    rfl
  · rw [hx.fail.1, ← h.router, ← h.feed]
    rfl
  · exact fun _ => congrArg Router.live (Exchange.router_fail x)

/-- Routing what the decoder holds is dispatching frames, and perhaps a failure after them. -/
theorem Mirrors.routeFrom (h : Mirrors d x) (hx : Attended x) (hf : d.failed = false)
    (done : List Delivery) (told : List Notice) :
    ∃ acts, Mirrors (Demultiplexer.routeFrom done told d).demux (x.run acts) := by
  fun_induction Demultiplexer.routeFrom done told d generalizing x with
  | case1 done told d hnext => exact ⟨[], h.router, h.feed, h.failed⟩
  | case2 done told d e hnext | case3 done told d f hnext e hdispatch =>
    exact ⟨_, h.fail hx e d.decoder.next.2⟩
  | case4 done told d f hnext deliveries router hdispatch feed notices hfeed ih =>
    have hroutes : x.router.Routes deliveries router :=
      Router.routes_of_dispatch (h.router ▸ hdispatch)
    obtain ⟨hshared, hattended⟩ := hx.routes hroutes
    have hstep : x.step (.route (.dispatch f)) = x.follow attendants deliveries router := by
      rw [step, Exchange.call, Exchange.dispatch_eq, ← h.router, hdispatch]
    have hmirrors : Mirrors { d with decoder := d.decoder.next.2, router, feed }
        (x.follow attendants deliveries router) := by
      constructor
      · exact (Exchange.router_follow hroutes.exists_live).symm
      · rw [hshared, ← h.feed, hfeed]
      · exact fun htrue => absurd htrue (by simp [hf])
    obtain ⟨acts, hrest⟩ := ih hmirrors hattended hf
    exact ⟨.route (.dispatch f) :: acts, by rwa [run, List.foldl_cons, hstep]⟩

section

variable {σ : Type} [Source σ]

/-- A pump does what frames and failures do. -/
theorem Mirrors.pump (h : Mirrors d x) (hx : Attended x) (blocking : Blocking) (s : σ) :
    ∃ acts, Mirrors (d.pump blocking s).demux (x.run acts) := by
  cases hf : d.failed with
  | true =>
    rw [Demultiplexer.pump_of_failed hf]
    exact ⟨[], h⟩
  | false =>
    obtain ⟨-, -, ⟨-, -, hd, -⟩ | ⟨-, -, hd, -⟩⟩ :=
      Demultiplexer.pump_of_not_failed blocking s hf
    · rw [hd]
      exact ⟨[], h.router, h.feed, h.failed⟩
    · have hfed : Mirrors
          { d with
            input := (d.input.take d.chunk blocking s).2.1
            pumps := d.pumps + 1
            decoder := d.decoder.feed (d.input.take d.chunk blocking s).1 } x :=
        ⟨h.router, h.feed, h.failed⟩
      rw [hd]
      exact hfed.routeFrom hx hf [] []

theorem Mirrors.use {t : Demultiplexer × σ} (h : Mirrors t.1 x) (hx : Attended x)
    (u : Demultiplexer.Use σ) : ∃ acts, Mirrors (Demultiplexer.use t u).1 (x.run acts) := by
  cases u with
  | pump blocking => exact h.pump hx blocking t.2
  | bind s => exact ⟨[], h⟩
  | ask q =>
    refine ⟨[.ask q], h.router, ?_, h.failed⟩
    simp only [Demultiplexer.use, run, List.foldl_cons, List.foldl_nil, step, h.feed]
  | drain r =>
    refine ⟨[.drain r], h.router, ?_, h.failed⟩
    simp only [Demultiplexer.use, run, List.foldl_cons, List.foldl_nil, step, h.feed]

theorem Mirrors.uses {t : Demultiplexer × σ} (h : Mirrors t.1 x) (hx : Attended x)
    (uses : List (Demultiplexer.Use σ)) :
    ∃ acts, Mirrors (uses.foldl Demultiplexer.use t).1 (x.run acts) := by
  induction uses generalizing t x with
  | nil => exact ⟨[], h⟩
  | cons u uses ih =>
    obtain ⟨first, hfirst⟩ := h.use hx u
    obtain ⟨others, hothers⟩ := ih hfirst (hx.run first)
    exact ⟨first ++ others, by rwa [run, List.foldl_append]⟩

end

/-! ### What waits -/

/-- Nothing in the feed waits for a stream that has been forgotten. -/
structure Unorphaned (x : Attendance) : Prop where
  /-- A request that is not complete is one of a live stream, whose handler knows its place. -/
  live : ∀ s ∈ x.shared.slots, s.projection.output.isComplete = false →
    s.projection.stream ∈ x.live ∧ x.handlers.lookup s.projection.stream = some s.number
  /-- After a failure all requests are complete. -/
  failed : ∀ s ∈ (x.fail attendants).shared.slots, s.projection.output.isComplete = true
  /-- What the feed waits for, with nothing to read and no failure to tell, is more of the request
  at the head of the queue. A handler will tell it. -/
  waiting : x.shared.hasError = false → x.shared.hasData = false →
    ∀ s rest, x.shared.prune.slots = s :: rest → s.projection.output.isComplete = false ∧
      s.projection.stream ∈ x.live ∧ x.handlers.lookup s.projection.stream = some s.number

theorem Attended.unorphaned (h : Attended x) : Unorphaned x := by
  constructor
  · exact fun s hs hgrowing => h.lookup hs hgrowing
  · have hnone : (x.fail attendants).live = [] := congrArg Router.live (Exchange.router_fail x)
    exact fun s hs => h.fail.2.isComplete hnone hs
  · intro herr hdata s rest hs
    have hgrowing : s.projection.output.isComplete = false := by
      simp [Accumulator.isComplete, (Feed.head_of_idle herr hdata hs).1]
    have hmem : s ∈ x.shared.slots := by
      refine (List.dropWhile_sublist Slot.isSpent).subset ?_
      rw [show x.shared.slots.dropWhile Slot.isSpent = s :: rest from hs]
      exact List.mem_cons_self
    exact ⟨hgrowing, h.lookup hmem hgrowing⟩

/--
Whatever frames come and whenever the connection fails, and however the feed is asked and drained in
between: a request that is not complete is one of a live stream. A demultiplexer stands where such
calls lead, and once it has failed all its requests are complete.
-/
theorem none_orphaned :
    (∀ acts, Unorphaned (run { shared := {} } acts)) ∧
      ∀ {σ : Type} [Source σ] (chunk max : Nat) (s : σ) (uses : List (Demultiplexer.Use σ)),
        let d := (uses.foldl Demultiplexer.use (Demultiplexer.create chunk max, s)).1
        (∃ acts, Mirrors d (run { shared := {} } acts)) ∧
          (d.failed = true → ∀ slot ∈ d.feed.slots, slot.projection.output.isComplete = true) := by
  constructor
  · exact fun acts => (attended_new.run acts).unorphaned
  · intro σ _ chunk max s uses d
    have hnew : Mirrors (Demultiplexer.create chunk max) { shared := {} } := ⟨rfl, rfl, nofun⟩
    obtain ⟨acts, hmirrors⟩ := hnew.uses attended_new uses (t := (_, s))
    refine ⟨⟨acts, hmirrors⟩, fun hfailed slot hslot => ?_⟩
    have hslot : slot ∈ (run { shared := {} } acts).shared.slots := hmirrors.feed ▸ hslot
    exact (attended_new.run acts).isComplete (hmirrors.failed hfailed) hslot

/-- A request is read while it grows, and the one behind it has failed while its stream is live. -/
def headWaits : List Act :=
  [.route (.dispatch (.opening 1 "/a" 0)), .ask .hasError,
    .route (.dispatch (.ofData 3 [0x61] false)), .drain ⟨.exhaustive, .block, 0⟩,
    .route (.dispatch (.ofData 3 [0x62] false)), .ask .hasData]

theorem headWaits_none_orphaned :
    (run { shared := {} } headWaits).handlers = [(1, 0), (3, 1)] ∧
      (run { shared := {} } headWaits).shared.slots.map
          (fun s => (s.number, s.projection.output.growth)) = [(0, .growing), (1, .failed)] ∧
      Unorphaned (run { shared := {} } headWaits) ∧
      let piece := (Frame.opening 1 "/a" 0).bytes ++ [0x58]
      let d := ([.pump .block, .drain ⟨.bytes, .block, 4⟩, .pump .block].foldl Demultiplexer.use
        (Demultiplexer.create 40 1024, ScriptedSource.ofBytes (piece ++ piece) .ok)).1
      d.failed = true ∧ ∀ slot ∈ d.feed.slots, slot.projection.output.isComplete = true := by
  refine ⟨?_, ?_, none_orphaned.1 _, ?_⟩
  · decide +kernel
  · decide +kernel
  · intro piece d
    have hfailed : d.failed = true := by decide +kernel
    exact ⟨hfailed, (none_orphaned.2 40 1024 _ _).2 hfailed⟩

end Attendance
end RequestFeed
