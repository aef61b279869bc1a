import RequestFeed.Proofs.Feed.Coherence
import RequestFeed.Proofs.Feed.Order
/-!
# Calls on feeds

All that can be asked of a feed, as data. A stream gets a place, an event comes in for a place, a
question is asked, or the feed is drained; what comes out is an answer, the feed afterwards, and
what the places that were released have left to tell.

A stream may get several places here, and events may come for any place in any order. A place is
known by its number: the places of a feed are numbered one after the other, and those that have
been released had the numbers before.

*Results.*
* `Feed.Numbered.call` and `Feed.coherent_call`: calls keep the numbers in order, and the requests
  coherent.
* `Feed.event_append_of_mem` and `Feed.event_append_of_not_mem`: an event reaches one place only.
* `Feed.drain_prune`: draining sees no more of a feed than what pruning leaves of it.
-/

namespace RequestFeed
namespace Feed

/-- A question that a feed answers. Places that are finished with are released before. -/
inductive Query where
  | hasError
  | hasData
  deriving DecidableEq, Repr

/-- What can be asked of a feed. -/
inductive Call where
  /-- A stream gets a place at the end of the queue. -/
  | create (stream : StreamId)
  /-- An event comes in for a place. -/
  | event (place : Nat) (event : StreamEvent)
  | ask (query : Query)
  | drain (request : ReadRequest)
  deriving DecidableEq, Repr

/-- What a feed answers. -/
inductive Answer where
  | placed (number : Nat)
  /-- What the request at the place has to tell about the event. -/
  | heard (notices : List Notice)
  | verdict (holds : Bool)
  | drained (reply : Except Violation Reply)

structure Called where
  answer : Answer
  feed : Feed
  /-- What the places that were released have left to tell. -/
  told : List Notice

/-- What a feed says to a question. -/
def verdict (f : Feed) : Query → Bool
  | .hasError => f.hasError
  | .hasData => f.hasData

def call (f : Feed) : Call → Called
  | .create stream => { answer := .placed f.created, feed := f.create stream, told := [] }
  | .event place e =>
    { answer := .heard (f.step place e).2, feed := (f.step place e).1, told := [] }
  | .ask q => { answer := .verdict (f.verdict q), feed := f.prune, told := f.pruneNotices }
  | .drain r =>
    { answer := .drained (f.drain r).reply, feed := (f.drain r).feed, told := (f.drain r).notices }

variable {f : Feed}

/-! ### Coherence -/

theorem coherent_call (h : f.Coherent) (c : Call) : (f.call c).feed.Coherent := by
  cases c with
  | create stream => exact (h.deliver (.created stream)).coherent
  | event place e => exact (lawful_event h place e).1
  | ask q => exact h.prune.coherent
  | drain r => exact (h.drain r).coherent

/-! ### Numbers -/

/-- The places of the feed are numbered one after the other, from `released` on. -/
structure Numbered (released : Nat) (f : Feed) : Prop where
  numbers : f.slots.map Slot.number = List.range' released f.slots.length
  created : f.created = released + f.slots.length

variable {released : Nat}

theorem numbered_new : Numbered 0 {} := ⟨rfl, rfl⟩

theorem Numbered.nodup (h : f.Numbered released) : (f.slots.map Slot.number).Nodup := by
  rw [h.numbers]
  exact List.nodup_range'

theorem Numbered.create (h : f.Numbered released) (stream : StreamId) :
    (f.create stream).Numbered released := by
  constructor
  · simp [Feed.create, h.numbers, h.created, List.range'_1_concat]
  · simp [Feed.create, h.created, Nat.add_assoc]

theorem Numbered.step (h : f.Numbered released) (place : Nat) (e : StreamEvent) :
    (f.step place e).1.Numbered released := by
  have hnumbers := (numbers_event place e f.slots).1
  have hlength := congrArg List.length hnumbers
  rw [List.length_map, List.length_map] at hlength
  constructor
  · simpa [Feed.step, hnumbers, hlength] using h.numbers
  · simpa [Feed.step, hlength] using h.created

/-- What is left when the first places are released. -/
theorem Numbered.release {g : Feed} {late : List Slot} (h : f.Numbered released)
    (hslots : f.slots = late ++ g.slots) (hcreated : g.created = f.created) :
    g.Numbered (released + late.length) := by
  have hnumbers := h.numbers
  rw [hslots, List.map_append, List.length_append, ← List.range'_append_1] at hnumbers
  constructor
  · exact (List.append_inj hnumbers (by simp)).2
  · rw [hcreated, h.created, hslots, List.length_append, Nat.add_assoc]

theorem Numbered.prune (h : f.Numbered released) :
    f.prune.Numbered (released + f.spent.length) :=
  h.release (List.takeWhile_append_dropWhile.symm) rfl

theorem Numbered.drain (h : f.Numbered released) (r : ReadRequest) :
    ∃ n, (f.drain r).feed.Numbered n := by
  have hpruned := h.prune
  rcases drain_cases r f with ⟨hfeed, -⟩ | ⟨s, rest, hs, hfeed, -⟩
  · rw [hfeed]
    exact ⟨_, hpruned⟩
  · have hread : (f.prune.readHead r s rest).Numbered (released + f.spent.length) := by
      constructor
      · simpa [readHead, hs] using hpruned.numbers
      · simpa [readHead, hs] using hpruned.created
    rw [hfeed]
    exact ⟨_, hread.prune⟩

theorem Numbered.call (h : f.Numbered released) (c : Call) :
    ∃ n, (f.call c).feed.Numbered n := by
  cases c with
  | create stream => exact ⟨_, h.create stream⟩
  | event place e => exact ⟨_, h.step place e⟩
  | ask q => exact ⟨_, h.prune⟩
  | drain r => exact h.drain r

/-! ### Events -/

variable {place : Nat} {late slots : List Slot}

/-- An event for one of the first places does not reach the others. -/
theorem event_append_of_mem (h : place ∈ late.map Slot.number) (e : StreamEvent)
    (slots : List Slot) :
    event place e (late ++ slots) = ((event place e late).1 ++ slots, (event place e late).2) := by
  induction late with
  | nil => simp at h
  | cons s rest ih =>
    rw [List.cons_append, event, event]
    by_cases hs : s.number = place
    · simp [hs]
    · have hrest : place ∈ rest.map Slot.number := by
        rcases List.mem_cons.mp h with heq | hmem
        · exact absurd heq.symm hs
        · exact hmem
      simp [hs, ih hrest]

/-- An event for none of the first places goes on to the others. -/
theorem event_append_of_not_mem (h : place ∉ late.map Slot.number) (e : StreamEvent)
    (slots : List Slot) :
    event place e (late ++ slots) = (late ++ (event place e slots).1, (event place e slots).2) := by
  induction late with
  | nil => rfl
  | cons s rest ih =>
    rw [List.map_cons, List.mem_cons, not_or] at h
    have hs : ¬ s.number = place := fun heq => h.1 heq.symm
    simp [event, hs, ih h.2]

/-- An event for a place that is not there reaches none. -/
theorem event_of_not_mem (h : place ∉ slots.map Slot.number) (e : StreamEvent) :
    event place e slots = (slots, []) := by
  have := event_append_of_not_mem h e []
  simpa [event] using this

/-- Requests that are finished take no notice of events. -/
theorem event_of_finished (h : ∀ s ∈ slots, s.projection.isFinished = true) (place : Nat)
    (e : StreamEvent) : event place e slots = (slots, []) := by
  induction slots with
  | nil => rfl
  | cons s rest ih =>
    obtain ⟨hs, hrest⟩ := List.forall_mem_cons.mp h
    rw [event, Projection.step_of_isFinished hs, ih hrest]
    split <;> rfl

/-- An event changes the request at its place and no other. -/
theorem event_eq_map (h : (slots.map Slot.number).Nodup) (e : StreamEvent) :
    (event place e slots).1 = slots.map fun s =>
      if s.number = place then { s with projection := (s.projection.step e).1 } else s := by
  induction slots with
  | nil => rfl
  | cons s rest ih =>
    obtain ⟨hs, hrest⟩ := List.nodup_cons.mp h
    rw [event, List.map_cons, ← ih hrest]
    by_cases heq : s.number = place
    · have hnot : place ∉ rest.map Slot.number := heq ▸ hs
      simp [heq, event_of_not_mem hnot]
    · simp [heq]

/-! ### Draining -/

@[simp] theorem pruneNotices_prune (f : Feed) : f.prune.pruneNotices = [] := by
  have hspent : f.prune.spent = [] := by
    cases hs : f.prune.slots with
    | nil => simp [spent, hs]
    | cons s rest => simp [spent, hs, isSpent_head_prune hs]
  simp [pruneNotices, hspent]

/-- Draining sees what pruning leaves of a feed; what the released places have left to tell comes
first. -/
theorem drain_prune (r : ReadRequest) (f : Feed) :
    f.drain r =
      { reply := (f.prune.drain r).reply
        feed := (f.prune.drain r).feed
        notices := f.pruneNotices ++ (f.prune.drain r).notices } := by
  rw [drain, drain, prune_prune, pruneNotices_prune]
  dsimp only
  split
  · simp
  · split
    · split <;> simp
    · simp

end Feed
end RequestFeed
