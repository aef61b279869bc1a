import RequestFeed.Feed.Basic
import RequestFeed.Proofs.Request.Account
/-!
# Deliveries to a feed

A feed finds the place of a stream by looking through its queue. Places have numbers of their own
and no two are for the same stream, so an event reaches the request of its stream and no other.

*Results.*
* `Feed.Tidy` is kept by every delivery: `Tidy.deliver_event`, `Tidy.deliver_created`, and
  `Tidy.deliverAll` for deliveries that create streams with increasing numbers.
* `Feed.requests_deliver_event` and `Feed.requests_deliver_created`: a delivery does to the requests
  of a feed what it does to those of an account.
* `Feed.drain_cases`: what a draining leaves.
-/

namespace RequestFeed

namespace Feed

/-- The requests of a feed, with what is left of them to read. -/
def requests (f : Feed) : Account := f.slots.map Slot.projection

/-- The places of a feed are numbered, and no two are for the same stream. -/
structure Tidy (highest : StreamId) (f : Feed) : Prop where
  numbers : (f.slots.map Slot.number).Nodup
  number_lt : ∀ s ∈ f.slots, s.number < f.created
  streams : (f.slots.map fun s => s.projection.stream).Nodup
  stream_le : ∀ s ∈ f.slots, s.projection.stream ≤ highest

theorem tidy_new : Tidy 0 {} := by
  constructor <;> simp

theorem numbers_event (number : Nat) (e : StreamEvent) (slots : List Slot) :
    (event number e slots).1.map Slot.number = slots.map Slot.number ∧
      (event number e slots).1.map (fun s => s.projection.stream) =
        slots.map fun s => s.projection.stream := by
  induction slots with
  | nil => exact ⟨rfl, rfl⟩
  | cons s rest ih =>
    rw [event]
    split
    · simp
    · simp [ih]

/-- Requests of other streams take no notice of an event. -/
theorem map_hear_of_not_mem {stream : StreamId} (e : StreamEvent) {slots : List Slot}
    (h : stream ∉ slots.map fun s => s.projection.stream) :
    (slots.map Slot.projection).map (·.hear (.event stream e)) = slots.map Slot.projection := by
  induction slots with
  | nil => rfl
  | cons s rest ih =>
    simp only [List.map_cons, List.mem_cons, not_or] at h
    have hs : ¬ s.projection.stream = stream := fun heq => h.1 heq.symm
    simp [Projection.hear, hs]
    simpa [Projection.hear] using ih h.2

/-- An event reaches the request of its stream, and no other. -/
theorem projections_event {stream : StreamId} {e : StreamEvent} {slots : List Slot} {number : Nat}
    (hn : (slots.map Slot.number).Nodup) (hs : (slots.map fun s => s.projection.stream).Nodup)
    (hfind : (slots.find? fun s => s.projection.stream = stream).map Slot.number = some number) :
    (event number e slots).1.map Slot.projection =
      (slots.map Slot.projection).map (·.hear (.event stream e)) := by
  induction slots with
  | nil => simp at hfind
  | cons s rest ih =>
    simp only [List.map_cons, List.nodup_cons] at hn hs
    by_cases heq : s.projection.stream = stream
    · have hnumber : s.number = number := by simpa [heq] using hfind
      rw [heq] at hs
      simp only [event, hnumber, if_true, List.map_cons, map_hear_of_not_mem e hs.1]
      simp [Projection.hear, heq]
    · simp only [List.find?_cons, heq, decide_false] at hfind
      obtain ⟨s', hs', rfl⟩ := Option.map_eq_some_iff.mp hfind
      have hmem : s'.number ∈ rest.map Slot.number :=
        List.mem_map.mpr ⟨s', List.mem_of_find?_eq_some hs', rfl⟩
      have hne : s.number ≠ s'.number := fun h => hn.1 (h ▸ hmem)
      simp only [event, hne, if_false, List.map_cons, ih hn.2 hs.2 hfind]
      simp [Projection.hear, heq]

variable {f : Feed} {highest : StreamId}

theorem requests_deliver_event (h : f.Tidy highest) (stream : StreamId) (e : StreamEvent) :
    (f.deliver (.event stream e)).1.requests = Account.record (.event stream e) f.requests := by
  rw [Account.record, Account.fresh, List.append_nil]
  simp only [deliver]
  cases hp : f.placeOf? stream with
  | some number => exact projections_event h.numbers h.streams hp
  | none =>
    refine (map_hear_of_not_mem e ?_).symm
    rw [placeOf?, Option.map_eq_none_iff, List.find?_eq_none] at hp
    intro hmem
    obtain ⟨s, hs, hstream⟩ := List.mem_map.mp hmem
    exact hp s hs (by simpa using hstream)

theorem requests_deliver_created (stream : StreamId) (f : Feed) :
    (f.deliver (.created stream)).1.requests = Account.record (.created stream) f.requests := by
  simp [deliver, create, requests, Account.record, Account.fresh, Projection.hear]

theorem failed_deliver (d : Delivery) (f : Feed) : (f.deliver d).1.failed = f.failed := by
  unfold deliver
  split
  · rfl
  · split <;> rfl

theorem Tidy.deliver_event (h : f.Tidy highest) (stream : StreamId) (e : StreamEvent) :
    (f.deliver (.event stream e)).1.Tidy highest := by
  simp only [deliver]
  split
  next number _ =>
    obtain ⟨hnumbers, hstreams⟩ := numbers_event number e f.slots
    constructor
    · simpa [step, hnumbers] using h.numbers
    · intro s hs
      have : s.number ∈ (event number e f.slots).1.map Slot.number := List.mem_map.mpr ⟨s, hs, rfl⟩
      rw [hnumbers] at this
      obtain ⟨t, ht, heq⟩ := List.mem_map.mp this
      rw [← heq]
      exact h.number_lt t ht
    · simpa [step, hstreams] using h.streams
    · intro s hs
      have : s.projection.stream ∈ (event number e f.slots).1.map fun s => s.projection.stream :=
        List.mem_map.mpr ⟨s, hs, rfl⟩
      rw [hstreams] at this
      obtain ⟨t, ht, heq⟩ := List.mem_map.mp this
      rw [← heq]
      exact h.stream_le t ht
  · exact h

theorem Tidy.deliver_created (h : f.Tidy highest) {stream : StreamId} (hlt : ¬ stream ≤ highest) :
    (f.deliver (.created stream)).1.Tidy stream := by
  have hle : highest ≤ stream := UInt32.le_of_lt (UInt32.not_le.mp hlt)
  constructor
  · simp only [deliver, create, List.map_append, List.map_cons, List.map_nil]
    refine List.nodup_append.mpr ⟨h.numbers, by simp, ?_⟩
    intro n hn m hm
    obtain ⟨s, hs, rfl⟩ := List.mem_map.mp hn
    rw [List.mem_singleton.mp hm]
    exact Nat.ne_of_lt (h.number_lt s hs)
  · intro s hs
    simp only [deliver, create] at hs ⊢
    rcases List.mem_append.mp hs with hs | hs
    · exact Nat.lt_succ_of_lt (h.number_lt s hs)
    · rw [List.mem_singleton.mp hs]
      exact Nat.lt_succ_self _
  · simp only [deliver, create, List.map_append, List.map_cons, List.map_nil]
    refine List.nodup_append.mpr ⟨h.streams, by simp, ?_⟩
    intro n hn m hm
    obtain ⟨s, hs, rfl⟩ := List.mem_map.mp hn
    rw [List.mem_singleton.mp hm]
    intro heq
    exact hlt (heq ▸ h.stream_le s hs)
  · intro s hs
    simp only [deliver, create] at hs
    rcases List.mem_append.mp hs with hs | hs
    · exact UInt32.le_trans (h.stream_le s hs) hle
    · rw [List.mem_singleton.mp hs]
      exact UInt32.le_refl _

/-- Deliveries do to the requests of a feed what they do to those of an account. -/
theorem Tidy.deliverAll (h : f.Tidy highest) {ds : List Delivery} {last : StreamId}
    (hd : Transcript.Opens highest ds last) :
    (f.deliverAll ds).1.requests = f.requests.recordAll ds ∧ (f.deliverAll ds).1.Tidy last := by
  induction hd generalizing f with
  | nil => exact ⟨rfl, h⟩
  | @created highest stream last ds hlt _ ih =>
    obtain ⟨hrequests, htidy⟩ := ih (h.deliver_created hlt)
    rw [requests_deliver_created] at hrequests
    exact ⟨hrequests, htidy⟩
  | event stream e _ ih =>
    obtain ⟨hrequests, htidy⟩ := ih (h.deliver_event stream e)
    rw [requests_deliver_event h] at hrequests
    exact ⟨hrequests, htidy⟩

/-! ### Drainings -/

/-- The feed after something has been read of the head of its queue. -/
def readHead (r : ReadRequest) (s : Slot) (rest : List Slot) (f : Feed) : Feed :=
  { f with
    slots :=
      { s with projection := { s.projection with output := (s.projection.output.read r).2 } } ::
        rest }

/-- A draining leaves the pruned feed as it is, or reads the head of its queue and prunes again. -/
theorem drain_cases (r : ReadRequest) (f : Feed) :
    (f.drain r).feed = f.prune ∧ (f.drain r).notices = f.pruneNotices ∨
      ∃ s rest, f.prune.slots = s :: rest ∧ (f.drain r).feed = (f.prune.readHead r s rest).prune ∧
        (f.drain r).notices = f.pruneNotices ++ (f.prune.readHead r s rest).pruneNotices := by
  rw [Feed.drain]
  dsimp only
  split
  · exact Or.inl ⟨rfl, rfl⟩
  · split
    · cases hs : f.prune.slots with
      | nil => exact Or.inl ⟨rfl, rfl⟩
      | cons s rest => exact Or.inr ⟨s, rest, rfl, rfl, rfl⟩
    · exact Or.inl ⟨rfl, rfl⟩

end Feed
end RequestFeed
