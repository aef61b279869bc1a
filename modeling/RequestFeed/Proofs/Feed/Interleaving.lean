import RequestFeed.Proofs.Feed.History
/-!
# Interleavings

Streams get places in a feed, and events come in for the places, with those of one stream among
those of others. Nobody can tell afterwards how they were mixed: the order in which the places were
created counts, and at each place the order of its own events.

*Method.* What stands at a place is told the events of the place and nothing else, so what calls
make of it is known from its own events alone (`Tenancy.writeAll_eq`). This is so of the requests in
the queue, less what has been read of them, and of the entries of the ledger, which has the requests
that were released too.

*Results.*
* `Tenancy.map_hear_eq_modify`: what stands in the order of places is found by counting.
* `History.run_of_writes`: what calls make of a feed and its ledger, place by place.
* `History.streams_stay_apart`: how events of different places were mixed does not show, and an
  event changes what stands at its place and nothing else.
-/

namespace RequestFeed
namespace Feed

/-! ### What is written -/

namespace Call

/-- The stream that gets a place. -/
def stream? : Call → Option StreamId
  | .create stream => some stream
  | _ => none

/-- What a place is told. -/
def heard? (place : Nat) : Call → Option StreamEvent
  | .event other e => if other = place then some e else none
  | _ => none

end Call

/-- The streams that get places, in order. -/
def streams (calls : List Call) : List StreamId := calls.filterMap Call.stream?

/-- What a place is told, in order. -/
def heard (place : Nat) (calls : List Call) : List StreamEvent :=
  calls.filterMap (Call.heard? place)

/-- Streams get places, and events come in for places that are there by then. The next new place has
the number `next`. -/
def Writes : Nat → List Call → Prop
  | _, [] => True
  | next, .create _ :: calls => Writes (next + 1) calls
  | next, .event place _ :: calls => place < next ∧ Writes next calls
  | _, .ask _ :: _ => False
  | _, .drain _ :: _ => False

instance instDecidableWrites : ∀ (next : Nat) (calls : List Call), Decidable (Writes next calls)
  | _, [] => isTrue trivial
  | next, .create _ :: calls => instDecidableWrites (next + 1) calls
  | _, .event _ _ :: calls => @instDecidableAnd _ _ _ (instDecidableWrites _ calls)
  | _, .ask _ :: _ => isFalse id
  | _, .drain _ :: _ => isFalse id

/-! ### What stands at places -/

/-- Things that stand at places: how they begin, and what an event makes of them. -/
structure Tenancy (α : Type) where
  place : α → Nat
  start : Nat → StreamId → α
  tell : StreamEvent → α → α
  place_start : ∀ n stream, place (start n stream) = n
  place_tell : ∀ e a, place (tell e a) = place a

namespace Tenancy

variable {α : Type} (t : Tenancy α)

/-- An event for a place is told to what stands there. -/
def hear (place : Nat) (e : StreamEvent) (a : α) : α := if t.place a = place then t.tell e a else a

def hearAll (es : List StreamEvent) (a : α) : α := es.foldl (fun a e => t.tell e a) a

/-- What stands at new places, the first of which has the number `next`. -/
def newcomers (next : Nat) (streams : List StreamId) : List α :=
  (streams.zipIdx next).map fun p => t.start p.2 p.1

/-- What calls make of what stands at places. -/
def writeAll : Nat → List α → List Call → List α
  | _, items, [] => items
  | next, items, .create stream :: calls =>
    writeAll (next + 1) (items ++ [t.start next stream]) calls
  | next, items, .event place e :: calls => writeAll next (items.map (t.hear place e)) calls
  | next, items, _ :: calls => writeAll next items calls

variable {t}

theorem hear_of_ne {place : Nat} {a : α} (h : t.place a ≠ place) (e : StreamEvent) :
    t.hear place e a = a := if_neg h

theorem place_hear (place : Nat) (e : StreamEvent) (a : α) :
    t.place (t.hear place e a) = t.place a := by
  unfold hear
  split
  · exact t.place_tell e a
  · rfl

/-- What is heard first is heard before the rest. -/
theorem hearAll_hear (place : Nat) (e : StreamEvent) (calls : List Call) (a : α) :
    t.hearAll (heard (t.place a) calls) (t.hear place e a) =
      t.hearAll (heard (t.place a) (.event place e :: calls)) a := by
  by_cases h : t.place a = place
  · simp [hear, heard, Call.heard?, hearAll, h]
  · have h' : ¬ place = t.place a := fun heq => h heq.symm
    simp [hear, heard, Call.heard?, h, h']

theorem le_place_of_mem_newcomers {next : Nat} {streams : List StreamId} {a : α}
    (h : a ∈ t.newcomers next streams) : next ≤ t.place a := by
  obtain ⟨p, hp, rfl⟩ := List.mem_map.mp h
  rw [t.place_start]
  exact List.le_snd_of_mem_zipIdx hp

/-- What stands at a place, after any calls, has been told the events of the place in their order,
and nothing else. -/
theorem writeAll_eq {next : Nat} {calls : List Call} (h : Writes next calls) (items : List α) :
    t.writeAll next items calls =
      (items ++ t.newcomers next (streams calls)).map fun a =>
        t.hearAll (heard (t.place a) calls) a := by
  induction calls generalizing next items with
  | nil => simp [writeAll, newcomers, streams, heard, hearAll]
  | cons c calls ih =>
    cases c with
    | create stream =>
      rw [writeAll, ih h, List.append_assoc]
      rfl
    | event place e =>
      obtain ⟨hplace, hcalls⟩ := h
      rw [writeAll, ih hcalls, List.map_append, List.map_append, List.map_map]
      congr 1
      · refine List.map_congr_left fun a _ => ?_
        rw [Function.comp_apply, place_hear, hearAll_hear]
      · refine List.map_congr_left fun a ha => ?_
        -- the place was there before anything new was
        have hle := le_place_of_mem_newcomers ha
        rw [← hearAll_hear, hear_of_ne (Nat.ne_of_gt (Nat.lt_of_lt_of_le hplace hle))]
    | ask q => exact h.elim
    | drain r => exact h.elim

/-- How events of different places are mixed does not matter. -/
theorem writeAll_congr {next : Nat} {one other : List Call} (hone : Writes next one)
    (hother : Writes next other) (hstreams : streams one = streams other)
    (hheard : ∀ place, heard place one = heard place other) (items : List α) :
    t.writeAll next items one = t.writeAll next items other := by
  rw [writeAll_eq hone, writeAll_eq hother, hstreams]
  exact List.map_congr_left fun a _ => by rw [hheard]

/-- What stands in the order of places is found by counting from the first of them. -/
theorem map_hear_eq_modify {first : Nat} {items : List α}
    (h : items.map t.place = List.range' first items.length) {place : Nat} (hle : first ≤ place)
    (e : StreamEvent) : items.map (t.hear place e) = items.modify (place - first) (t.tell e) := by
  refine List.ext_getElem (by simp) fun i hi _ => ?_
  rw [List.length_map] at hi
  have hplace : t.place items[i] = first + i := by
    have hget := List.getElem_of_eq h (by simpa using hi)
    rw [List.getElem_map, List.getElem_range', Nat.one_mul] at hget
    exact hget
  have hsame : first + i = place ↔ place - first = i := by omega
  rw [List.getElem_map, List.getElem_modify, hear, hplace]
  simp only [hsame]

end Tenancy

/-- The requests in the queue. -/
def slotTenancy : Tenancy Slot where
  place := Slot.number
  start n stream := { number := n, projection := { stream } }
  tell e s := { s with projection := (s.projection.step e).1 }
  place_start _ _ := rfl
  place_tell _ _ := rfl

/-- The entries of the ledger. -/
def entryTenancy : Tenancy Entry where
  place := Entry.place
  start n stream := { place := n, request := { stream } }
  tell e en := { en with request := (en.request.step e).1 }
  place_start _ _ := rfl
  place_tell _ _ := rfl

namespace History

variable {h : History} {released : Nat}

theorem numbered_run (hn : h.feed.Numbered released) (calls : List Call) :
    ∃ n, (h.run calls).feed.Numbered n := by
  induction calls generalizing h released with
  | nil => exact ⟨released, hn⟩
  | cons c calls ih =>
    obtain ⟨n, hstep⟩ := hn.call c
    exact ih (h := h.step c) hstep

theorem step_event (hn : h.feed.Numbered released) (place : Nat) (e : StreamEvent) :
    h.step (.event place e) =
      { feed := { h.feed with slots := h.feed.slots.map (slotTenancy.hear place e) }
        ledger := h.ledger.map (entryTenancy.hear place e) } := by
  have hslots : (event place e h.feed.slots).1 = _ := event_eq_map hn.nodup e
  simp only [step, Feed.call, Feed.step, hslots]
  rfl

/-- What calls that write make of a feed and its ledger. -/
theorem run_of_writes (hn : h.feed.Numbered released) {calls : List Call}
    (hw : Writes h.feed.created calls) :
    h.run calls =
      { feed :=
          { h.feed with
            slots := slotTenancy.writeAll h.feed.created h.feed.slots calls
            created := h.feed.created + (streams calls).length }
        ledger := entryTenancy.writeAll h.feed.created h.ledger calls } := by
  induction calls generalizing h released with
  | nil => rfl
  | cons c calls ih =>
    cases c with
    | create stream =>
      have hlength : (streams (.create stream :: calls)).length = (streams calls).length + 1 := rfl
      have hcreated : h.feed.created + (streams (.create stream :: calls)).length =
          h.feed.created + 1 + (streams calls).length := by rw [hlength]; omega
      rw [hcreated]
      exact ih (h := h.step (.create stream)) (hn.create stream) hw
    | event place e =>
      have hrest := ih (h := h.step (.event place e)) (hn.step place e) hw.2
      rw [run, List.foldl_cons]
      rw [step_event hn] at hrest ⊢
      exact hrest
    | ask q => exact hw.elim
    | drain r => exact hw.elim

/-- An event for a place that has been released is not heard. -/
theorem step_event_of_released (hn : h.feed.Numbered released) (hb : h.feed.Books h.ledger)
    {place : Nat} (hlt : place < released) (e : StreamEvent) : h.step (.event place e) = h := by
  obtain ⟨gone, part, hbooked⟩ := hb
  have hqueue : ∀ n ∈ h.feed.slots.map Slot.number, n ≠ place := by
    intro n hmem
    rw [hn.numbers] at hmem
    have hle := (List.mem_range'_1.mp hmem).1
    omega
  have hslots : h.feed.slots.map (slotTenancy.hear place e) = h.feed.slots := by
    refine (List.map_congr_left fun s hs => ?_).trans (List.map_id' _)
    exact Tenancy.hear_of_ne (hqueue _ (List.mem_map_of_mem hs)) e
  have hledger : h.ledger.map (entryTenancy.hear place e) = h.ledger := by
    refine (List.map_congr_left fun en hen => ?_).trans (List.map_id' _)
    rw [hbooked.entries] at hen
    rcases List.mem_append.mp hen with hgone | hqueued
    · exact Entry.hear_of_isFinished (hbooked.finished en hgone) place e
    · refine Tenancy.hear_of_ne (hqueue en.place ?_) e
      rw [← places_queued part]
      exact List.mem_map_of_mem hqueued
  rw [step_event hn, hslots, hledger]

/-- An event changes what stands at its place, which is found by counting. -/
theorem step_event_of_le (hn : h.feed.Numbered released) (hb : h.feed.Books h.ledger)
    {place : Nat} (hle : released ≤ place) (e : StreamEvent) :
    h.step (.event place e) =
      { feed :=
          { h.feed with slots := h.feed.slots.modify (place - released) (slotTenancy.tell e) }
        ledger := h.ledger.modify place (entryTenancy.tell e) } := by
  obtain ⟨gone, part, hbooked⟩ := hb
  have hplaces : h.ledger.map entryTenancy.place = List.range' 0 h.ledger.length := by
    have hall := hbooked.places
    have hlength := congrArg List.length hall
    rw [List.length_map, List.length_range] at hlength
    rw [hlength, ← List.range_eq_range']
    exact hall
  rw [step_event hn, Tenancy.map_hear_eq_modify hn.numbers hle,
    Tenancy.map_hear_eq_modify hplaces (Nat.zero_le place), Nat.sub_zero]

/-- What happens at one place has no bearing on any other. -/
structure Apart (h : History) : Prop where
  /-- However calls are mixed that come to the same places in the same order and tell each place the
  same: the feed ends up the same, with all that it holds, and so do all requests, the released
  ones included. -/
  mixed : ∀ one other, Writes h.feed.created one → Writes h.feed.created other →
    streams one = streams other → (∀ place, heard place one = heard place other) →
      h.run one = h.run other
  /-- The places in the queue come after those that were released. An event for a released place
  changes nothing, and an event for another place only what stands there. -/
  event : ∃ released, h.feed.Numbered released ∧ ∀ place e,
    (place < released → h.step (.event place e) = h) ∧
      (released ≤ place → h.step (.event place e) =
        { feed :=
            { h.feed with slots := h.feed.slots.modify (place - released) (slotTenancy.tell e) }
          ledger := h.ledger.modify place (entryTenancy.tell e) })

/--
Whatever was called before, drainings and releases included: streams do not interfere.
-/
theorem streams_stay_apart (calls : List Call) : (run calls {}).Apart := by
  have hbooks : (run calls {}).feed.Books (run calls {}).ledger :=
    books_run (h := {}) books_new calls
  obtain ⟨released, hn⟩ := numbered_run (h := {}) numbered_new calls
  constructor
  · intro one other hone hother hstreams hheard
    rw [run_of_writes hn hone, run_of_writes hn hother, hstreams,
      Tenancy.writeAll_congr hone hother hstreams hheard,
      Tenancy.writeAll_congr hone hother hstreams hheard]
  · refine ⟨released, hn, fun place e => ⟨fun hlt => ?_, fun hle => ?_⟩⟩
    · exact step_event_of_released hn hbooks hlt e
    · exact step_event_of_le hn hbooks hle e

/-- The first place is released, and the second is there. -/
def oneReleased : List Call :=
  [.create 1, .create 3, .event 0 (.reset 2), .ask .hasError]

/-- A third place is created early or late, and events come in for all three. -/
def early : List Call :=
  [.create 5, .event 2 (.data [1] false), .event 1 (.opened ⟨[("method", "PUT"), ("url", "/a"),
    ("version", "HTTP/1.1"), ("content-length", "2")]⟩ false), .event 0 .connectionFailed,
    .event 1 (.data [2] false), .event 2 (.data [3] true)]

def late : List Call :=
  [.event 0 .connectionFailed, .event 1 (.opened ⟨[("method", "PUT"), ("url", "/a"),
    ("version", "HTTP/1.1"), ("content-length", "2")]⟩ false), .event 1 (.data [2] false),
    .create 5, .event 2 (.data [1] false), .event 2 (.data [3] true)]

theorem early_late_apart :
    (run oneReleased {}).feed.slots.map Slot.number = [1] ∧
      (run early (run oneReleased {})).feed.slots.map
          (fun s => s.projection.output.growth) = [.growing, .failed] ∧
      run early (run oneReleased {}) = run late (run oneReleased {}) := by
  refine ⟨by decide +kernel, by decide +kernel, ?_⟩
  refine (streams_stay_apart oneReleased).mixed early late (by decide +kernel) (by decide +kernel)
    rfl fun place => ?_
  rcases place with _ | _ | _ | place <;> rfl

end History
end Feed
end RequestFeed
