import RequestFeed.Proofs.Feed.Calls
/-!
# The ledger of a feed

A ledger has an entry for every place that a feed ever had: all that the request at the place has
produced, whether or not it has been read or released, and what drainings have taken out of it. It
remembers what a feed forgets, so it is what is said about the order of a feed over a whole history
of calls.

*Invariant.* `Feed.Booked`: the ledger is made of the entries of places that were released, and of
those of the queue. Only of the head of the queue has a part been read. As long as no failed place
has been released, all released places have been delivered in full.

*Results.*
* `Feed.Booked.create`, `Feed.Booked.event` and `Feed.Books.prune`: what happens to a feed keeps the
  invariant.
* `Feed.Books.drain_of_hasData`: a draining delivers the next bytes of a place whose turn it is.
* `Feed.Books.hasError_iff`: a failure is reported exactly when the first place that has not been
  delivered has failed.
-/

namespace RequestFeed
namespace Feed

/-- What is known about a place. -/
structure Entry where
  place : Nat
  /-- All that the request has produced; nothing is ever read of it here. -/
  request : Projection
  /-- What has been taken out of the request. -/
  consumed : Bytes := []

abbrev Ledger := List Entry

namespace Entry

/-- The request at a place takes notice of an event. -/
def hear (place : Nat) (e : StreamEvent) (en : Entry) : Entry :=
  if en.place = place then { en with request := (en.request.step e).1 } else en

/-- Bytes are taken out of the request at a place. -/
def take (place : Nat) (bs : Bytes) (en : Entry) : Entry :=
  if en.place = place then { en with consumed := en.consumed ++ bs } else en

/-- The request is complete, has not failed, and has been read in full. -/
structure Delivered (en : Entry) : Prop where
  complete : en.request.output.growth = .complete
  consumed : en.consumed = en.request.written

/-- The entry of a place in the queue of which a part has been read. -/
def ofSlot (part : Bytes) (s : Slot) : Entry :=
  { place := s.number, request := s.projection.prepend part, consumed := part }

@[simp] theorem place_hear (place : Nat) (e : StreamEvent) (en : Entry) :
    (en.hear place e).place = en.place := by
  unfold hear
  split <;> rfl

@[simp] theorem consumed_hear (place : Nat) (e : StreamEvent) (en : Entry) :
    (en.hear place e).consumed = en.consumed := by
  unfold hear
  split <;> rfl

@[simp] theorem place_take (place : Nat) (bs : Bytes) (en : Entry) :
    (en.take place bs).place = en.place := by
  unfold take
  split <;> rfl

@[simp] theorem request_take (place : Nat) (bs : Bytes) (en : Entry) :
    (en.take place bs).request = en.request := by
  unfold take
  split <;> rfl

theorem take_of_ne {place : Nat} {en : Entry} (h : en.place ≠ place) (bs : Bytes) :
    en.take place bs = en := by
  simp [take, h]

theorem hear_of_isFinished {en : Entry} (h : en.request.isFinished = true) (place : Nat)
    (e : StreamEvent) : en.hear place e = en := by
  unfold hear
  split
  · rw [Projection.step_of_isFinished h]
  · rfl

theorem coherent_hear {en : Entry} (h : en.request.Coherent) (place : Nat) (e : StreamEvent) :
    (en.hear place e).request.Coherent := by
  unfold hear
  split
  · exact Projection.coherent_step h e
  · exact h

/-- What has been read has no bearing on what an event does. -/
theorem hear_ofSlot (part : Bytes) (place : Nat) (e : StreamEvent) (s : Slot) :
    (ofSlot part s).hear place e =
      ofSlot part
        (if s.number = place then { s with projection := (s.projection.step e).1 } else s) := by
  unfold hear ofSlot
  dsimp only
  split
  · rw [Projection.step_prepend]
  · rfl

end Entry

namespace Ledger

/-- These are the next bytes of a place whose turn it is: all places before it have been
delivered. -/
def Offers (ledger : Ledger) (place : Nat) (bs : Bytes) : Prop :=
  ∃ before en after, ledger = before ++ en :: after ∧ en.place = place ∧
    (∀ earlier ∈ before, earlier.Delivered) ∧ en.consumed ++ bs <+: en.request.written

/-- A place whose turn it is has failed: all places before it have been delivered. -/
def FailsAt (ledger : Ledger) (place : Nat) : Prop :=
  ∃ before en after, ledger = before ++ en :: after ∧ en.place = place ∧
    (∀ earlier ∈ before, earlier.Delivered) ∧ en.request.output.growth = .failed

variable {ledger : Ledger} {place : Nat}

theorem FailsAt.append (h : ledger.FailsAt place) (more : Ledger) :
    FailsAt (ledger ++ more) place := by
  obtain ⟨before, en, after, rfl, hplace, hbefore, hfailed⟩ := h
  exact ⟨before, en, after ++ more, by simp, hplace, hbefore, hfailed⟩

/-- A failure whose turn it is comes after the places that have been delivered. -/
theorem FailsAt.of_append {gone : Ledger} (h : FailsAt (gone ++ ledger) place)
    (hgone : ∀ en ∈ gone, en.Delivered) : ledger.FailsAt place := by
  obtain ⟨before, en, after, hentries, hplace, hbefore, hfailed⟩ := h
  rcases List.append_eq_append_iff.mp hentries with ⟨others, rfl, rfl⟩ | ⟨others, rfl, hen⟩
  · exact ⟨others, en, after, rfl, hplace, fun x hx => hbefore x (by simp [hx]), hfailed⟩
  · cases others with
    | nil => exact ⟨[], en, after, hen.symm, hplace, nofun, hfailed⟩
    | cons first others =>
      obtain ⟨rfl, -⟩ := List.cons.inj hen
      have hcomplete := (hgone en (by simp)).complete
      rw [hfailed] at hcomplete
      cases hcomplete

/-- A failure whose turn it is stays one, whatever is heard later. -/
theorem FailsAt.hear (h : ledger.FailsAt place) (hc : ∀ en ∈ ledger, en.request.Coherent)
    (other : Nat) (e : StreamEvent) : FailsAt (ledger.map (Entry.hear other e)) place := by
  obtain ⟨before, en, after, rfl, hplace, hbefore, hfailed⟩ := h
  have hsame (x : Entry) (hx : x ∈ before ++ en :: after)
      (hg : x.request.output.growth ≠ .growing) : x.hear other e = x :=
    Entry.hear_of_isFinished ((hc x hx).mpr hg) other e
  have hfirst : before.map (Entry.hear other e) = before := by
    refine (List.map_congr_left fun x hx => ?_).trans (List.map_id' before)
    exact hsame x (by simp [hx]) (by simp [(hbefore x hx).complete])
  refine ⟨before, en, after.map (Entry.hear other e), ?_, hplace, hbefore, hfailed⟩
  rw [List.map_append, List.map_cons, hfirst, hsame en (by simp) (by simp [hfailed])]

end Ledger

/-- The entries of the places in the queue; a part of the first has been read. -/
def queued (part : Bytes) : List Slot → Ledger
  | [] => []
  | s :: rest => Entry.ofSlot part s :: rest.map (Entry.ofSlot [])

theorem queued_nil (slots : List Slot) : queued [] slots = slots.map (Entry.ofSlot []) := by
  cases slots <;> rfl

theorem queued_append {part : Bytes} {slots : List Slot} (h : slots = [] → part = []) (s : Slot) :
    queued part (slots ++ [s]) = queued part slots ++ [Entry.ofSlot [] s] := by
  cases slots with
  | nil => simp [queued, h rfl]
  | cons first rest => simp [queued]

theorem places_queued (part : Bytes) (slots : List Slot) :
    (queued part slots).map Entry.place = slots.map Slot.number := by
  cases slots with
  | nil => rfl
  | cons s rest => simp [queued, Entry.ofSlot]

/-- What a ledger says of a feed: these places have been released, and this part of the head of the
queue has been read. -/
structure Booked (gone : Ledger) (part : Bytes) (f : Feed) (ledger : Ledger) : Prop where
  entries : ledger = gone ++ queued part f.slots
  places : ledger.map Entry.place = List.range f.created
  coherent : ∀ en ∈ ledger, en.request.Coherent
  /-- Nothing is left of a part of no place. -/
  unread : f.slots = [] → part = []
  finished : ∀ en ∈ gone, en.request.isFinished = true
  consumed : ∀ en ∈ gone, en.consumed <+: en.request.written
  state : f.failed = false ∧ (∀ en ∈ gone, en.Delivered) ∨
    f.failed = true ∧ ∃ place, gone.FailsAt place

/-- The ledger is one of this feed. -/
def Books (f : Feed) (ledger : Ledger) : Prop := ∃ gone part, Booked gone part f ledger

theorem books_new : Books {} [] := by
  refine ⟨[], [], ?_⟩
  constructor <;> simp [queued]

variable {f : Feed} {gone ledger : Ledger} {part : Bytes}

namespace Booked

theorem consumed_prefix (h : Booked gone part f ledger) {en : Entry} (hen : en ∈ ledger) :
    en.consumed <+: en.request.written := by
  rw [h.entries] at hen
  rcases List.mem_append.mp hen with hgone | hqueued
  · exact h.consumed en hgone
  · cases hs : f.slots with
    | nil => simp [hs, queued] at hqueued
    | cons s rest =>
      rw [hs, queued, List.mem_cons, List.mem_map] at hqueued
      rcases hqueued with rfl | ⟨other, -, rfl⟩
      · exact List.prefix_append _ _
      · exact List.nil_prefix

/-- What is held in the queue is what has not been taken out. -/
theorem held_of_slot (h : Booked gone part f ledger) {s : Slot} (hs : s ∈ f.slots) :
    ∃ en ∈ ledger, en.place = s.number ∧
      en.request.written = en.consumed ++ s.projection.written := by
  cases hslots : f.slots with
  | nil => simp [hslots] at hs
  | cons first rest =>
    rw [hslots] at hs
    have hentry (q : Bytes) (hq : Entry.ofSlot q s ∈ queued part f.slots) :
        ∃ en ∈ ledger, en.place = s.number ∧
          en.request.written = en.consumed ++ s.projection.written :=
      ⟨_, h.entries ▸ List.mem_append_right gone hq, rfl, rfl⟩
    rcases List.mem_cons.mp hs with rfl | hrest
    · exact hentry part (by simp [hslots, queued])
    · exact hentry [] (by simp [hslots, queued, List.mem_map_of_mem hrest])

theorem create (h : Booked gone part f ledger) (stream : StreamId) :
    Booked gone part (f.create stream)
      (ledger ++ [{ place := f.created, request := { stream } }]) := by
  have hentry : Entry.ofSlot [] { number := f.created, projection := { stream } } =
      { place := f.created, request := { stream } } := by simp [Entry.ofSlot]
  constructor
  · rw [h.entries, Feed.create, queued_append h.unread, hentry,
      List.append_assoc]
  · simp [h.places, Feed.create, List.range_succ]
  · intro en hen
    rcases List.mem_append.mp hen with hold | hnew
    · exact h.coherent en hold
    · rw [List.mem_singleton.mp hnew]
      exact Projection.coherent_new stream
  · simp [Feed.create]
  · exact h.finished
  · exact h.consumed
  · exact h.state

theorem nodup (h : Booked gone part f ledger) : (ledger.map Entry.place).Nodup := by
  rw [h.places]
  exact List.nodup_range

theorem nodup_numbers (h : Booked gone part f ledger) : (f.slots.map Slot.number).Nodup := by
  have hnodup := h.nodup
  rw [h.entries, List.map_append, places_queued] at hnodup
  exact (List.nodup_append.mp hnodup).2.1

/-- An event does to the entries what it does to the queue. -/
theorem event (h : Booked gone part f ledger) (place : Nat) (e : StreamEvent) :
    Booked gone part (f.step place e).1 (ledger.map (Entry.hear place e)) := by
  have hgone : gone.map (Entry.hear place e) = gone := by
    refine (List.map_congr_left fun en hen => ?_).trans (List.map_id' gone)
    exact Entry.hear_of_isFinished (h.finished en hen) place e
  have hqueued : (queued part f.slots).map (Entry.hear place e) =
      queued part (f.step place e).1.slots := by
    rw [Feed.step]
    dsimp only
    rw [event_eq_map h.nodup_numbers]
    cases f.slots with
    | nil => rfl
    | cons s rest => simp [queued, Entry.hear_ofSlot]
  have hnil : (f.step place e).1.slots = [] → f.slots = [] := by
    intro hnone
    have := congrArg List.length (numbers_event place e f.slots).1
    simp only [Feed.step] at hnone
    simpa [hnone] using this.symm
  constructor
  · rw [h.entries, List.map_append, hgone, hqueued]
  · rw [List.map_map]
    exact (List.map_congr_left fun en _ => en.place_hear place e).trans h.places
  · intro en hen
    obtain ⟨old, hold, rfl⟩ := List.mem_map.mp hen
    exact Entry.coherent_hear (h.coherent old hold) place e
  · exact fun hnone => h.unread (hnil hnone)
  · exact h.finished
  · exact h.consumed
  · exact h.state

/-- A place at the head that is finished with is released: it has been delivered, or its failure is
one whose turn it is. -/
theorem release {s : Slot} {rest : List Slot} (h : Booked gone part f ledger)
    (hslots : f.slots = s :: rest) (hs : s.isSpent = true) :
    Booked (gone ++ [Entry.ofSlot part s]) []
      { f with slots := rest, failed := f.failed || s.hasError } ledger := by
  have hentries : ledger = gone ++ Entry.ofSlot part s :: rest.map (Entry.ofSlot []) := by
    rw [h.entries, hslots, queued]
  have hhead : Entry.ofSlot part s ∈ ledger := by simp [hentries]
  constructor
  · rw [hentries, queued_nil, List.append_assoc]
    rfl
  · exact h.places
  · exact h.coherent
  · exact fun _ => rfl
  · refine List.forall_mem_append.mpr ⟨h.finished, ?_⟩
    rw [List.forall_mem_singleton]
    exact (h.coherent _ hhead).mpr (Slot.growth_ne_of_isSpent hs)
  · refine List.forall_mem_append.mpr ⟨h.consumed, ?_⟩
    rw [List.forall_mem_singleton]
    exact h.consumed_prefix hhead
  · rcases h.state with ⟨hf, hall⟩ | ⟨hf, place, hfails⟩
    · cases herr : s.hasError with
      | true =>
        refine Or.inr ⟨by simp, s.number, gone, _, [], rfl, rfl, hall, ?_⟩
        exact Slot.hasError_eq_true_iff.mp herr
      | false =>
        obtain ⟨hcomplete, hempty⟩ := Slot.complete_of_isSpent hs herr
        refine Or.inl ⟨by simp [hf], List.forall_mem_append.mpr ⟨hall, ?_⟩⟩
        rw [List.forall_mem_singleton]
        exact ⟨hcomplete, by simp [Entry.ofSlot, hempty]⟩
    · exact Or.inr ⟨by simp [hf], place, hfails.append _⟩

end Booked

theorem Books.prune (h : f.Books ledger) : f.prune.Books ledger := by
  induction hs : f.slots generalizing f with
  | nil =>
    rw [prune_of_nil hs]
    exact h
  | cons s rest ih =>
    cases hspent : s.isSpent with
    | true =>
      obtain ⟨gone, part, hbooked⟩ := h
      rw [prune_of_isSpent hs hspent]
      exact ih ⟨_, _, hbooked.release hs hspent⟩ rfl
    | false =>
      rw [prune_of_not_isSpent hs hspent]
      exact h

/-! ### Draining -/

/-- The place that a draining reads, if there is something to read. -/
def reading? (f : Feed) : Option Nat :=
  if f.hasData then f.prune.slots.head?.map Slot.number else none

/-- What is read of the head is taken out of its entry and of no other. -/
theorem Booked.read_head {s : Slot} {rest : List Slot} (h : Booked gone part f ledger)
    (hslots : f.slots = s :: rest) {output : Accumulator} {bs : Bytes}
    (hheld : s.projection.output.held.bytes = bs ++ output.held.bytes)
    (hgrowth : output.growth = s.projection.output.growth) :
    Booked gone (part ++ bs)
      { f with slots := { s with projection := { s.projection with output } } :: rest }
      (ledger.map (Entry.take s.number bs)) := by
  have hentries : ledger = gone ++ Entry.ofSlot part s :: rest.map (Entry.ofSlot []) := by
    rw [h.entries, hslots, queued]
  have hnodup := h.nodup
  rw [hentries, List.map_append, List.map_cons] at hnodup
  obtain ⟨-, hlast, hdiffer⟩ := List.nodup_append.mp hnodup
  have hgone : gone.map (Entry.take s.number bs) = gone := by
    refine (List.map_congr_left fun en hen => ?_).trans (List.map_id' gone)
    exact Entry.take_of_ne (hdiffer _ (List.mem_map_of_mem hen) _ List.mem_cons_self) bs
  have hrest : (rest.map (Entry.ofSlot [])).map (Entry.take s.number bs) =
      rest.map (Entry.ofSlot []) := by
    refine (List.map_congr_left fun en hen => ?_).trans (List.map_id' _)
    refine Entry.take_of_ne (fun heq => (List.nodup_cons.mp hlast).1 ?_) bs
    have hplace : (Entry.ofSlot part s).place = en.place := heq.symm
    rw [hplace]
    exact List.mem_map_of_mem hen
  have hhead : (Entry.ofSlot part s).take s.number bs =
      Entry.ofSlot (part ++ bs) { s with projection := { s.projection with output } } := by
    have hwritten : part ++ s.projection.output.held.bytes =
        part ++ bs ++ output.held.bytes := by rw [hheld, List.append_assoc]
    simp only [Entry.take, Entry.ofSlot, if_true, Projection.prepend, hwritten, hgrowth]
  constructor
  · rw [hentries, List.map_append, List.map_cons, hgone, hrest, hhead]
    rfl
  · rw [List.map_map]
    exact (List.map_congr_left fun en _ => en.place_take s.number bs).trans h.places
  · intro en hen
    obtain ⟨old, hold, rfl⟩ := List.mem_map.mp hen
    rw [Entry.request_take]
    exact h.coherent old hold
  · simp
  · exact h.finished
  · exact h.consumed
  · exact h.state

theorem reading?_of_hasData {s : Slot} {rest : List Slot} (h : f.hasData = true)
    (hs : f.prune.slots = s :: rest) : f.reading? = some s.number := by
  simp [reading?, h, hs]

/-- A feed with bytes to deliver answers with bytes of the head of the queue, and all places before
it have been delivered. -/
theorem Books.drain_of_hasData (h : f.Books ledger) (hdata : f.hasData = true) (r : ReadRequest) :
    ∃ place bs, f.reading? = some place ∧ (f.drain r).reply = .ok (Reply.ok bs) ∧
      ledger.Offers place bs ∧
      (f.drain r).feed.Books (ledger.map (Entry.take place ((Reply.ok bs).consumed r))) := by
  obtain ⟨s, rest, hs, hfailed, -, hheld⟩ := head_of_hasData hdata
  obtain ⟨bs, hreply, hprefix, hheldEq, hgrowth⟩ := Accumulator.read_prefix r hheld
  obtain ⟨hok, hfeed⟩ := Feed.drain_of_hasData (r := r) hdata hs
  obtain ⟨gone, part, hbooked⟩ := h.prune
  refine ⟨s.number, bs, reading?_of_hasData hdata hs, by rw [hok, hreply], ?_, ?_⟩
  · rcases hbooked.state with ⟨-, hall⟩ | ⟨hf, -⟩
    · refine ⟨gone, Entry.ofSlot part s, rest.map (Entry.ofSlot []), ?_, rfl, hall, ?_⟩
      · rw [hbooked.entries, hs, queued]
      · exact (List.prefix_append_right_inj part).mpr hprefix
    · rw [hfailed] at hf
      exact absurd hf Bool.false_ne_true
  · rw [hfeed]
    exact Books.prune ⟨gone, _, hbooked.read_head hs hheldEq hgrowth⟩

/-! ### Failures -/

/-- A failure that is reported is one whose turn it is. -/
theorem Books.failsAt_of_hasError (h : f.Books ledger) (herr : f.hasError = true) :
    ∃ place, ledger.FailsAt place := by
  obtain ⟨gone, part, hbooked⟩ := h.prune
  rcases hbooked.state with ⟨hf, hall⟩ | ⟨-, place, hfails⟩
  · rw [hasError, isFailed, hf, Bool.false_or] at herr
    cases hs : f.prune.slots with
    | nil => simp [hs] at herr
    | cons s rest =>
      simp only [hs] at herr
      refine ⟨s.number, gone, Entry.ofSlot part s, rest.map (Entry.ofSlot []), ?_, rfl, hall, ?_⟩
      · rw [hbooked.entries, hs, queued]
      · exact Slot.hasError_eq_true_iff.mp herr
  · exact ⟨place, hbooked.entries ▸ hfails.append _⟩

/-- The head of a pruned queue has not been delivered. -/
theorem not_delivered_head {s : Slot} {rest : List Slot} (hs : f.prune.slots = s :: rest)
    (part : Bytes) : ¬ (Entry.ofSlot part s).Delivered := by
  intro hdelivered
  have hgrowth : s.projection.output.growth = .complete := hdelivered.complete
  have hempty : s.projection.output.held.bytes = [] := by
    have hconsumed : part = part ++ s.projection.output.held.bytes := hdelivered.consumed
    simpa using hconsumed
  have hspent := isSpent_head_prune hs
  simp [Slot.isSpent, Accumulator.isComplete, hgrowth,
    ByteQueue.isEmpty_eq_true_iff.mpr hempty] at hspent

/-- A failure whose turn it is is reported. -/
theorem Books.hasError_of_failsAt (h : f.Books ledger) {place : Nat}
    (hfails : ledger.FailsAt place) : f.hasError = true := by
  obtain ⟨gone, part, hbooked⟩ := h.prune
  rcases hbooked.state with ⟨-, hall⟩ | ⟨hf, -⟩
  · rw [hbooked.entries] at hfails
    obtain ⟨before, en, after, hentries, -, hbefore, hfailed⟩ := hfails.of_append hall
    cases hs : f.prune.slots with
    | nil => simp [hs, queued] at hentries
    | cons s rest =>
      rw [hs, queued] at hentries
      cases before with
      | nil =>
        obtain ⟨rfl, -⟩ := List.cons.inj hentries
        have herr : s.hasError = true := Slot.hasError_eq_true_iff.mpr hfailed
        simp [hasError, isFailed, hs, herr]
      | cons first others =>
        obtain ⟨rfl, -⟩ := List.cons.inj hentries
        exact absurd (hbefore _ List.mem_cons_self) (not_delivered_head hs part)
  · simp [hasError, isFailed, hf]

/-- A failure is reported exactly when the first place that has not been delivered has failed. -/
theorem Books.hasError_iff (h : f.Books ledger) :
    f.hasError = true ↔ ∃ place, ledger.FailsAt place :=
  ⟨h.failsAt_of_hasError, fun ⟨_, hfails⟩ => h.hasError_of_failsAt hfails⟩

theorem drain_of_hasError (herr : f.hasError = true) (r : ReadRequest) :
    (f.drain r).reply = .error .drainOfFailedFeed ∧ (f.drain r).feed = f.prune := by
  have hfailed : f.prune.isFailed = true := herr
  simp [drain, hfailed]

end Feed
end RequestFeed
