import RequestFeed.Proofs.Feed.Ledger
/-!
# Histories of feeds

A history is what calls make of a feed and of its ledger, one after the other.

*Results.*
* `Feed.History.Orderly`: places are delivered one after the other, each in order and in full, and
  only a failure whose turn it is shows.
* `Feed.History.failsAt_run`: such a failure stays, and nothing is delivered after it.
* `Feed.History.drains_in_turn`: both hold of every history.
-/

namespace RequestFeed
namespace Feed

/-- A feed and its ledger. -/
structure History where
  feed : Feed := {}
  ledger : Ledger := []

namespace History

/-- What a call makes of the ledger. -/
def note (h : History) : Call → Ledger
  | .create stream => h.ledger ++ [{ place := h.feed.created, request := { stream } }]
  | .event place e => h.ledger.map (Entry.hear place e)
  | .ask _ => h.ledger
  | .drain r =>
    match (h.feed.drain r).reply, h.feed.reading? with
    | .ok reply, some place => h.ledger.map (Entry.take place (reply.consumed r))
    | _, _ => h.ledger

def step (h : History) (c : Call) : History := { feed := (h.feed.call c).feed, ledger := h.note c }

def run (calls : List Call) (h : History) : History := calls.foldl step h

variable {h : History}

/-- Draining a feed that has nothing to deliver, or has failed, takes nothing out. -/
theorem note_drain_of_not_hasData (hdata : h.feed.hasData = false) (r : ReadRequest) :
    h.note (.drain r) = h.ledger := by
  simp [note, reading?, hdata]

theorem books_step (hb : h.feed.Books h.ledger) (c : Call) :
    (h.step c).feed.Books (h.step c).ledger := by
  cases c with
  | create stream =>
    obtain ⟨gone, part, hbooked⟩ := hb
    exact ⟨gone, part, hbooked.create stream⟩
  | event place e =>
    obtain ⟨gone, part, hbooked⟩ := hb
    exact ⟨gone, part, hbooked.event place e⟩
  | ask q => exact hb.prune
  | drain r =>
    cases hdata : h.feed.hasData with
    | true =>
      obtain ⟨place, bs, hplace, hreply, -, hafter⟩ := hb.drain_of_hasData hdata r
      simpa [step, Feed.call, note, hplace, hreply] using hafter
    | false =>
      have hfeed : (h.feed.drain r).feed = h.feed.prune := by
        cases herr : h.feed.hasError with
        | true => exact (drain_of_hasError herr r).2
        | false => exact (drain_of_idle r herr hdata).2
      simpa [step, Feed.call, note_drain_of_not_hasData hdata, hfeed] using hb.prune

theorem books_run (hb : h.feed.Books h.ledger) (calls : List Call) :
    (h.run calls).feed.Books (h.run calls).ledger := by
  induction calls generalizing h with
  | nil => exact hb
  | cons c calls ih => exact ih (books_step hb c)

/-- A failure whose turn it is ends everything: nothing that is called afterwards takes bytes out of
any place. -/
theorem failsAt_step (hb : h.feed.Books h.ledger) {place : Nat} (hfails : h.ledger.FailsAt place)
    (c : Call) :
    (h.step c).ledger.FailsAt place ∧
      ∃ fresh, (h.step c).ledger.map Entry.consumed = h.ledger.map Entry.consumed ++ fresh ∧
        ∀ bs ∈ fresh, bs = [] := by
  cases c with
  | create stream =>
    refine ⟨hfails.append _, [[]], ?_, by simp⟩
    simp [step, note]
  | event other e =>
    obtain ⟨gone, part, hbooked⟩ := hb
    refine ⟨hfails.hear hbooked.coherent other e, [], ?_, nofun⟩
    simp only [step, note, List.map_map, List.append_nil]
    exact List.map_congr_left fun en _ => en.consumed_hear other e
  | ask q => exact ⟨hfails, [], by simp [step, note], nofun⟩
  | drain r =>
    have hreply := (drain_of_hasError (hb.hasError_of_failsAt hfails) r).1
    have hsame : (h.step (.drain r)).ledger = h.ledger := by simp [step, note, hreply]
    rw [hsame]
    exact ⟨hfails, [], by simp, nofun⟩

theorem failsAt_run (hb : h.feed.Books h.ledger) {place : Nat} (hfails : h.ledger.FailsAt place)
    (calls : List Call) :
    (h.run calls).ledger.FailsAt place ∧
      ∃ fresh, (h.run calls).ledger.map Entry.consumed = h.ledger.map Entry.consumed ++ fresh ∧
        ∀ bs ∈ fresh, bs = [] := by
  induction calls generalizing h with
  | nil => exact ⟨hfails, [], by simp [run], nofun⟩
  | cons c calls ih =>
    obtain ⟨hstep, first, hfirst, hnone⟩ := failsAt_step hb hfails c
    obtain ⟨hrun, others, hothers, hnone'⟩ := ih (books_step hb c) hstep
    refine ⟨hrun, first ++ others, ?_, List.forall_mem_append.mpr ⟨hnone, hnone'⟩⟩
    rw [← List.append_assoc, ← hfirst]
    exact hothers

/-- Places are delivered one after the other. -/
structure Orderly (h : History) : Prop where
  /-- The entries stand in the order in which the places were created. -/
  places : h.ledger.map Entry.place = List.range h.feed.created
  /-- What is taken out of a place comes in the order in which it was produced, without loss or
  repetition. -/
  consumed : ∀ en ∈ h.ledger, en.consumed <+: en.request.written
  /-- What has not been taken out of a place in the queue is still held there. -/
  held : ∀ s ∈ h.feed.slots, ∃ en ∈ h.ledger, en.place = s.number ∧
    en.request.written = en.consumed ++ s.projection.written
  /-- A draining that shows bytes reads one place. They are the next of that place, and all places
  before it are complete, have not failed, and have been read in full. -/
  drained : ∀ r reply, (h.feed.drain r).reply = .ok reply → reply.output.bytes ≠ [] →
    ∃ place, h.feed.reading? = some place ∧ h.ledger.Offers place reply.output.bytes
  /-- Only a failure whose turn it is shows. -/
  hasError : h.feed.hasError = true ↔ ∃ place, h.ledger.FailsAt place
  /-- Before that, drainings succeed. -/
  answered : (¬ ∃ place, h.ledger.FailsAt place) →
    ∀ r, ∃ reply, (h.feed.drain r).reply = .ok reply ∧ reply.status = .ok

/-- The feed reports a failure and delivers nothing any more. -/
structure Ended (h : History) : Prop where
  hasError : h.feed.hasError = true
  hasData : h.feed.hasData = false
  drained : ∀ r, (h.feed.drain r).reply = .error .drainOfFailedFeed

theorem orderly_of_books (hb : h.feed.Books h.ledger) : h.Orderly := by
  have ⟨gone, part, hbooked⟩ := hb
  have hidle (r : ReadRequest) (hdata : h.feed.hasData = false) (herr : h.feed.hasError = false) :
      (h.feed.drain r).reply = .ok (Reply.ok []) := (drain_of_idle r herr hdata).1
  constructor
  · exact hbooked.places
  · exact fun en hen => hbooked.consumed_prefix hen
  · exact fun s hs => hbooked.held_of_slot hs
  · intro r reply hreply hbytes
    cases hdata : h.feed.hasData with
    | true =>
      obtain ⟨place, bs, hplace, hok, hoffers, -⟩ := hb.drain_of_hasData hdata r
      rw [hok, Except.ok.injEq] at hreply
      subst hreply
      exact ⟨place, hplace, by simpa [Reply.ok] using hoffers⟩
    | false =>
      cases herr : h.feed.hasError with
      | true => simp [(drain_of_hasError herr r).1] at hreply
      | false =>
        rw [hidle r hdata herr, Except.ok.injEq] at hreply
        subst hreply
        exact absurd rfl hbytes
  · exact hb.hasError_iff
  · intro hnone r
    have herr : h.feed.hasError = false := by
      rw [← Bool.not_eq_true, hb.hasError_iff]
      exact hnone
    cases hdata : h.feed.hasData with
    | true =>
      obtain ⟨place, bs, -, hok, -, -⟩ := hb.drain_of_hasData hdata r
      exact ⟨_, hok, rfl⟩
    | false => exact ⟨_, hidle r hdata herr, rfl⟩

theorem ended_of_failsAt (hb : h.feed.Books h.ledger) {place : Nat}
    (hfails : h.ledger.FailsAt place) : h.Ended := by
  have herr := hb.hasError_of_failsAt hfails
  constructor
  · exact herr
  · cases hdata : h.feed.hasData with
    | false => rfl
    | true => simp [hasError_eq_false_of_hasData hdata] at herr
  · exact fun r => (drain_of_hasError herr r).1

/--
Whatever is called: places are delivered one after the other, each in order and in full. When it is
the turn of a place that has failed, the feed says so for ever, and nothing more is taken out of any
place.
-/
theorem drains_in_turn (calls : List Call) :
    let h := run calls {}
    h.Orderly ∧ ∀ place, h.ledger.FailsAt place → ∀ more,
      (h.run more).ledger.FailsAt place ∧ (h.run more).Ended ∧
        ∃ fresh, (h.run more).ledger.map Entry.consumed = h.ledger.map Entry.consumed ++ fresh ∧
          ∀ bs ∈ fresh, bs = [] := by
  intro h
  have hbooks : h.feed.Books h.ledger := books_run (h := {}) books_new calls
  refine ⟨orderly_of_books hbooks, fun place hfails more => ?_⟩
  obtain ⟨hlater, hconsumed⟩ := failsAt_run hbooks hfails more
  exact ⟨hlater, ended_of_failsAt (books_run hbooks more) hlater, hconsumed⟩

/-- A stream is reset while another is served that came before it. -/
def lateFailure : List Call :=
  [.create 1, .create 3,
    .event 0 (.opened ⟨[("method", "PUT"), ("url", "/a"), ("version", "HTTP/1.1"),
      ("content-length", "2")]⟩ false),
    .event 1 (.reset 2), .drain ⟨.bytes, .block, 5⟩, .ask .hasError, .event 0 (.data [1, 2] true),
    .drain ⟨.speculative, .block, 0⟩, .drain ⟨.exhaustive, .block, 0⟩]

theorem lateFailure_ends :
    (run (lateFailure.take 8) {}).feed.hasError = false ∧
      ∃ place, (run lateFailure {}).ledger.FailsAt place ∧
        ((run lateFailure {}).run [.create 5, .event 2 .connectionFailed]).Ended := by
  obtain ⟨horderly, hends⟩ := drains_in_turn lateFailure
  have hfailed : (run lateFailure {}).feed.hasError = true := by decide +kernel
  obtain ⟨place, hfails⟩ := horderly.hasError.mp hfailed
  exact ⟨by decide +kernel, place, hfails, (hends place hfails _).2.1⟩

end History
end Feed
end RequestFeed
