import RequestFeed.Proofs.Feed.Calls
/-!
# Pruning does not show

A question releases the places that are finished with, and an event for a place that has been
released is not heard. Still, nobody can tell from the answers of a feed how often it was asked:
questions that are put in between change no other answer.

*Relation.* `Feed.Lags late f g`: the feed `f` still has the places `late` at its head, which `g`
has released. All of them are finished with, so events for them are not heard by either feed, and
the next question or draining releases them from `f` too.

*Results.*
* `Feed.Lags.call`: feeds of which one lags behind answer every call alike.
* `Feed.Run.transparent`: questions put in between have no bearing on a run, but for the time at
  which places are released and failures are told.
-/

namespace RequestFeed
namespace Feed

/-- What there is to tell when these places are released. -/
def failures (late : List Slot) : List Notice :=
  (late.filter Slot.hasError).map fun s => .streamUnusable s.projection.stream

theorem pruneNotices_eq (f : Feed) : f.pruneNotices = failures f.spent := rfl

theorem failures_append (late others : List Slot) :
    failures (late ++ others) = failures late ++ failures others := by
  simp [failures]

/-- The first feed has places at its head that are finished with and that the second has released.
Otherwise they are the same. -/
structure Lags (late : List Slot) (f g : Feed) : Prop where
  slots : f.slots = late ++ g.slots
  spent : ∀ s ∈ late, s.isSpent = true
  failed : g.failed = (f.failed || late.any Slot.hasError)
  created : g.created = f.created

variable {late : List Slot} {f g : Feed}

theorem lags_refl (f : Feed) : Lags [] f f := by
  constructor <;> simp

namespace Lags

theorem spent_eq (h : Lags late f g) : f.spent = late ++ g.spent := by
  rw [Feed.spent, h.slots, List.takeWhile_append_of_pos h.spent]
  rfl

/-- What is released late is told late. -/
theorem pruneNotices_eq (h : Lags late f g) : f.pruneNotices = failures late ++ g.pruneNotices := by
  rw [Feed.pruneNotices_eq, h.spent_eq, failures_append, Feed.pruneNotices_eq]

/-- Pruning makes the two feeds the same. -/
theorem prune_eq (h : Lags late f g) : f.prune = g.prune := by
  have hslots : f.slots.dropWhile Slot.isSpent = g.slots.dropWhile Slot.isSpent := by
    rw [h.slots, List.dropWhile_append_of_pos h.spent]
  simp only [Feed.prune, hslots, h.spent_eq, h.failed, h.created, List.any_append, Bool.or_assoc]

/-- Releasing more places lets the first feed lag further behind. -/
theorem prune (h : Lags late f g) : Lags (late ++ g.spent) f g.prune := by
  constructor
  · rw [h.slots, List.append_assoc]
    exact congrArg (late ++ ·) List.takeWhile_append_dropWhile.symm
  · intro s hs
    rcases List.mem_append.mp hs with hlate | hspent
    · exact h.spent s hlate
    · exact List.all_eq_true.mp List.all_takeWhile s hspent
  · simp [Feed.prune, h.failed, Bool.or_assoc]
  · exact h.created

theorem verdict (h : Lags late f g) (q : Query) : g.verdict q = f.verdict q := by
  cases q with
  | hasError => simp only [Feed.verdict, hasError, h.prune_eq]
  | hasData => simp only [Feed.verdict, hasData, h.prune_eq]

theorem create (h : Lags late f g) (stream : StreamId) :
    Lags late (f.create stream) (g.create stream) := by
  constructor
  · simp [Feed.create, h.slots, h.created]
  · exact h.spent
  · exact h.failed
  · simp [Feed.create, h.created]

/-- An event is heard by both feeds or by neither. -/
theorem step (h : Lags late f g) (hc : f.Coherent) (hn : (f.slots.map Slot.number).Nodup)
    (place : Nat) (e : StreamEvent) :
    Lags late (f.step place e).1 (g.step place e).1 ∧ (g.step place e).2 = (f.step place e).2 := by
  have hevent : event place e f.slots =
      (late ++ (event place e g.slots).1, (event place e g.slots).2) := by
    rw [h.slots]
    by_cases hmem : place ∈ late.map Slot.number
    · -- the numbers differ, so the place is not among those that both feeds still have
      have hnot : place ∉ g.slots.map Slot.number := by
        rw [h.slots, List.map_append, List.nodup_append] at hn
        exact fun hother => hn.2.2 place hmem place hother rfl
      have hfinished : ∀ s ∈ late, s.projection.isFinished = true := by
        intro s hs
        have hcoherent : s.projection.Coherent := hc s (by simp [h.slots, hs])
        exact hcoherent.mpr (Slot.growth_ne_of_isSpent (h.spent s hs))
      rw [event_append_of_mem hmem, event_of_finished hfinished, event_of_not_mem hnot]
    · exact event_append_of_not_mem hmem e g.slots
  constructor
  · constructor
    · simp [Feed.step, hevent]
    · exact h.spent
    · exact h.failed
    · exact h.created
  · simp [Feed.step, hevent]

/-- A feed that lags behind answers every call as the other does, and tells what it has to tell when
it catches up. -/
theorem call (h : Lags late f g) (hc : f.Coherent) (hn : (f.slots.map Slot.number).Nodup)
    (c : Call) :
    (g.call c).answer = (f.call c).answer ∧
      ∃ later, Lags later (f.call c).feed (g.call c).feed ∧
        failures late ++ (g.call c).told = (f.call c).told ++ failures later := by
  cases c with
  | create stream =>
    refine ⟨?_, late, h.create stream, by simp [Feed.call]⟩
    simp [Feed.call, h.created]
  | event place e =>
    obtain ⟨hlags, hheard⟩ := h.step hc hn place e
    refine ⟨?_, late, hlags, by simp [Feed.call]⟩
    simp [Feed.call, hheard]
  | ask q =>
    refine ⟨?_, [], ?_, ?_⟩
    · simp [Feed.call, h.verdict]
    · simp only [Feed.call, h.prune_eq]
      exact lags_refl _
    · simp [Feed.call, h.pruneNotices_eq, failures]
  | drain r =>
    simp only [Feed.call, drain_prune r f, drain_prune r g, h.prune_eq]
    refine ⟨trivial, [], lags_refl _, ?_⟩
    simp [h.pruneNotices_eq, failures]

end Lags

/-! ### Runs -/

/-- What happens in a run: a call, or a question that is put in between. -/
inductive Move where
  | call (call : Call)
  | aside (query : Query)
  deriving DecidableEq, Repr

def Move.isCall : Move → Bool
  | .call _ => true
  | .aside _ => false

/-- A feed, the answers to the calls so far, and what was told of places that were released. -/
structure Run where
  feed : Feed := {}
  answers : List Answer := []
  told : List Notice := []

namespace Run

/-- The answer to a question that is put in between is not kept. -/
def step (t : Run) : Move → Run
  | .call c =>
    { feed := (t.feed.call c).feed
      answers := t.answers ++ [(t.feed.call c).answer]
      told := t.told ++ (t.feed.call c).told }
  | .aside q =>
    { t with
      feed := (t.feed.call (.ask q)).feed
      told := t.told ++ (t.feed.call (.ask q)).told }

def run (moves : List Move) (t : Run) : Run := moves.foldl step t

/-- Two runs have given the same answers; the one lags behind the other in what it has released,
and in what it has told of it. -/
structure Follows (quiet noisy : Run) : Prop where
  answers : noisy.answers = quiet.answers
  lags : ∃ late, Lags late quiet.feed noisy.feed ∧ noisy.told = quiet.told ++ failures late
  coherent : quiet.feed.Coherent
  numbered : ∃ released, quiet.feed.Numbered released

variable {quiet noisy : Run}

theorem follows_new : Follows {} {} := by
  constructor
  · rfl
  · exact ⟨[], lags_refl {}, rfl⟩
  · exact coherent_new
  · exact ⟨0, numbered_new⟩

theorem Follows.call (h : Follows quiet noisy) (c : Call) :
    Follows (quiet.step (.call c)) (noisy.step (.call c)) := by
  obtain ⟨late, hlags, htold⟩ := h.lags
  obtain ⟨released, hnumbered⟩ := h.numbered
  obtain ⟨hanswer, later, hlater, htells⟩ := hlags.call h.coherent hnumbered.nodup c
  constructor
  · simp [step, h.answers, hanswer]
  · refine ⟨later, hlater, ?_⟩
    simp only [step, htold, List.append_assoc, htells]
  · exact coherent_call h.coherent c
  · exact hnumbered.call c

theorem Follows.aside (h : Follows quiet noisy) (q : Query) :
    Follows quiet (noisy.step (.aside q)) := by
  obtain ⟨late, hlags, htold⟩ := h.lags
  constructor
  · exact h.answers
  · refine ⟨late ++ noisy.feed.spent, hlags.prune, ?_⟩
    simp only [step, Feed.call, htold, failures_append, pruneNotices_eq, List.append_assoc]
  · exact h.coherent
  · exact h.numbered

/-- A run without the questions in between follows the run with them. -/
theorem Follows.run (h : Follows quiet noisy) (moves : List Move) :
    Follows (quiet.run (moves.filter Move.isCall)) (noisy.run moves) := by
  induction moves generalizing quiet noisy with
  | nil => exact h
  | cons m moves ih =>
    cases m with
    | call c => exact ih (h.call c)
    | aside q => exact ih (h.aside q)

/--
Questions that are put in between change no answer to a call. They only make places leave the queue
earlier that are finished with, and failures of such places be told earlier: once both feeds have
been pruned they are the same, and the same has been told in the same order.
-/
theorem transparent (moves : List Move) :
    let noisy := run moves {}
    let quiet := run (moves.filter Move.isCall) {}
    noisy.answers = quiet.answers ∧
      (∃ late, quiet.feed.slots = late ++ noisy.feed.slots ∧ ∀ s ∈ late, s.isSpent = true) ∧
      noisy.feed.prune = quiet.feed.prune ∧
      noisy.told ++ noisy.feed.pruneNotices = quiet.told ++ quiet.feed.pruneNotices := by
  intro noisy quiet
  have hfollows : Follows quiet noisy := follows_new.run moves
  obtain ⟨late, hlags, htold⟩ := hfollows.lags
  refine ⟨hfollows.answers, ⟨late, hlags.slots, hlags.spent⟩, hlags.prune_eq.symm, ?_⟩
  rw [htold, hlags.pruneNotices_eq, List.append_assoc]

end Run
end Feed
end RequestFeed
