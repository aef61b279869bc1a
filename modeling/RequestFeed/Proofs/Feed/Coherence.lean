import RequestFeed.Proofs.Feed.Deliveries
import RequestFeed.Proofs.Request.Reading
/-!
# Coherent feeds

Every request of a feed is finished exactly when its output has ended. An event is written only to a
request that has not finished, and then its output has not ended; so nothing that a feed tells is
about a broken promise.

*Results.*
* `Projection.harmless_step`: an event is never written after the end of an output.
* `Feed.Coherent.deliver`, `Feed.Coherent.prune` and `Feed.Coherent.drain`: what a feed does keeps
  it coherent, and tells of no broken promise.
-/

namespace RequestFeed

/-- None of these notices is about a broken promise. -/
def Notice.Harmless (told : List Notice) : Prop := ∀ n ∈ told, n.violation? = none

namespace Notice.Harmless

theorem nil : Harmless [] := nofun

theorem append {first others : List Notice} (h : Harmless first) (k : Harmless others) :
    Harmless (first ++ others) := by
  intro n hn
  rcases List.mem_append.mp hn with hfirst | hothers
  · exact h n hfirst
  · exact k n hothers

theorem reverse {told : List Notice} (h : Harmless told) : Harmless told.reverse :=
  fun n hn => h n (List.mem_reverse.mp hn)

end Notice.Harmless

open Notice (Harmless)

/-! ### Requests -/

/-- An event for a request that has not finished is written to an output that has not ended. -/
theorem Projection.harmless_step {p : Projection} (h : p.Coherent) (e : StreamEvent) :
    Harmless (p.step e).2 := by
  cases hf : p.isFinished with
  | true =>
    rw [step_of_isFinished hf]
    exact .nil
  | false =>
    have hgrowing := (isFinished_eq_false_iff h).mp hf
    have hopen : p.output.isComplete = false := by simp [Accumulator.isComplete, hgrowing]
    cases ha : p.stage.advance e with
    | error cause => simp [step, hf, ha, Harmless, Notice.violation?]
    | ok answer => simp [step, hf, ha, Accumulator.append, hopen, Harmless]

/-! ### Feeds -/

namespace Feed

/-- The requests of a feed are finished exactly when their outputs have ended. -/
def Coherent (f : Feed) : Prop := ∀ s ∈ f.slots, s.projection.Coherent

/-- No promise has been broken, and the feed stands where none can be broken next. -/
structure Lawful (f : Feed) (told : List Notice) : Prop where
  coherent : f.Coherent
  harmless : Harmless told

variable {f : Feed} {told : List Notice}

theorem coherent_new : Coherent {} := nofun

theorem Coherent.requests (h : f.Coherent) : f.requests.Coherent := by
  intro p hp
  obtain ⟨s, hs, rfl⟩ := List.mem_map.mp hp
  exact h s hs

theorem Lawful.after (h : f.Lawful told) {before : List Notice} (hb : Harmless before) :
    f.Lawful (before ++ told) := ⟨h.coherent, hb.append h.harmless⟩

theorem lawful_event {slots : List Slot} (h : ∀ s ∈ slots, s.projection.Coherent) (number : Nat)
    (e : StreamEvent) :
    (∀ s ∈ (event number e slots).1, s.projection.Coherent) ∧
      Harmless (event number e slots).2 := by
  induction slots with
  | nil => exact ⟨nofun, .nil⟩
  | cons s rest ih =>
    obtain ⟨hs, hrest⟩ := List.forall_mem_cons.mp h
    rw [event]
    split
    · constructor
      · exact List.forall_mem_cons.mpr ⟨Projection.coherent_step hs e, hrest⟩
      · exact Projection.harmless_step hs e
    · obtain ⟨hslots, htold⟩ := ih hrest
      exact ⟨List.forall_mem_cons.mpr ⟨hs, hslots⟩, htold⟩

/-- Events for places that have been released are not heard. -/
theorem Coherent.deliver (h : f.Coherent) (d : Delivery) :
    (f.deliver d).1.Lawful (f.deliver d).2 := by
  cases d with
  | created stream =>
    constructor
    · intro s hs
      rcases List.mem_append.mp hs with hold | hnew
      · exact h s hold
      · rw [List.mem_singleton.mp hnew]
        exact Projection.coherent_new stream
    · exact .nil
  | event stream e =>
    rw [Feed.deliver]
    cases f.placeOf? stream with
    | none => exact ⟨h, .nil⟩
    | some number =>
      obtain ⟨hslots, htold⟩ := lawful_event h number e
      exact ⟨hslots, htold⟩

theorem Coherent.deliverAll (h : f.Coherent) (ds : List Delivery) :
    (f.deliverAll ds).1.Lawful (f.deliverAll ds).2 := by
  induction ds generalizing f with
  | nil => exact ⟨h, .nil⟩
  | cons d ds ih =>
    have hfirst := h.deliver d
    exact (ih hfirst.coherent).after hfirst.harmless

/-- That a stream has failed breaks no promise. -/
theorem Coherent.prune (h : f.Coherent) : f.prune.Lawful f.pruneNotices := by
  constructor
  · intro s hs
    exact h s ((List.dropWhile_sublist _).subset hs)
  · intro n hn
    obtain ⟨s, -, rfl⟩ := List.mem_map.mp hn
    rfl

theorem Coherent.drain (h : f.Coherent) (r : ReadRequest) :
    (f.drain r).feed.Lawful (f.drain r).notices := by
  have hpruned := h.prune
  rcases drain_cases r f with ⟨hfeed, htold⟩ | ⟨s, rest, hslots, hfeed, htold⟩
  · rw [hfeed, htold]
    exact hpruned
  · have hcoherent := hpruned.coherent
    rw [Coherent, hslots] at hcoherent
    obtain ⟨hs, hrest⟩ := List.forall_mem_cons.mp hcoherent
    have hread : (f.prune.readHead r s rest).Coherent := by
      refine List.forall_mem_cons.mpr ⟨?_, hrest⟩
      simpa [Projection.Coherent, Projection.isFinished, Accumulator.growth_read] using hs
    rw [hfeed, htold]
    exact hread.prune.after hpruned.harmless

end Feed

end RequestFeed
