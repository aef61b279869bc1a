import RequestFeed.Proofs.Stream.Transcript
/-!
# Dispatching frames in order

A transcript is computed by a recursion over frames. Here its deliveries are described without
one: the decoded frames are dispatched in order up to the first bytes that are no frame or the
first frame that cannot be routed, and then every stream that is live at that point is told, in
the order of the numbers, that the connection failed. Nothing comes after that.

*Results.*
* `Router.Ordered.dispatches`: live streams stay in the order of their numbers.
* `Transcript.dispatched_ofBytes`: the deliveries of a transcript are as described.
-/

namespace RequestFeed

namespace Router

/-- Frames are dispatched in order; these are the deliveries, and the router afterwards. -/
inductive Dispatches : Router → List Frame → List Delivery → Router → Prop where
  | nil (r : Router) : Dispatches r [] [] r
  | cons {r r' last : Router} {f : Frame} {frames : List Frame} {ds es : List Delivery}
    (first : r.dispatch f = .ok (ds, r')) (rest : Dispatches r' frames es last) :
    Dispatches r (f :: frames) (ds ++ es) last

/-- The live streams stand in the order of their numbers, and none has a number that is yet to
come. -/
structure Ordered (r : Router) : Prop where
  increasing : r.live.Pairwise (· < ·)
  bounded : ∀ stream ∈ r.live, stream ≤ r.highest

variable {r r' : Router} {frames : List Frame} {ds : List Delivery}

theorem ordered_new : Ordered {} := ⟨List.Pairwise.nil, by simp⟩

theorem Ordered.settle (h : r.Ordered) (stream : StreamId) (e : StreamEvent) :
    (r.settle stream e).Ordered := by
  unfold Router.settle
  split
  · constructor
    · exact h.increasing.filter _
    · intro other hmem
      exact h.bounded other (List.mem_filter.mp hmem).1
  · exact h

/-- A stream with a larger number than all before comes last. -/
theorem Ordered.append (h : r.Ordered) {stream : StreamId} (hlater : ¬ stream ≤ r.highest) :
    Ordered { r with live := r.live ++ [stream], highest := stream } := by
  have hlt : ∀ other ∈ r.live, other < stream := fun other hmem =>
    UInt32.lt_of_le_of_lt (h.bounded other hmem) (UInt32.not_le.mp hlater)
  constructor
  · rw [List.pairwise_append]
    refine ⟨h.increasing, List.pairwise_singleton _ _, ?_⟩
    intro other hmem last hlast
    rw [List.mem_singleton] at hlast
    rw [hlast]
    exact hlt other hmem
  · intro other hmem
    rcases List.mem_append.mp hmem with hlive | hnew
    · exact UInt32.le_of_lt (hlt other hlive)
    · rw [List.mem_singleton] at hnew
      rw [hnew]
      exact UInt32.le_refl stream

theorem Ordered.routes (h : r.Ordered) (hr : r.Routes ds r') : r'.Ordered := by
  cases hr with
  | silent hlive hhighest =>
    constructor
    · rw [hlive]
      exact h.increasing
    · rw [hlive, hhighest]
      exact h.bounded
  | known e _ => exact h.settle _ e
  | fresh e hlater => exact (h.append hlater).settle _ e

theorem Ordered.dispatches (h : r.Ordered) (hd : Dispatches r frames ds r') : r'.Ordered := by
  induction hd with
  | nil => exact h
  | cons first _ ih => exact ih (h.routes (routes_of_dispatch first))

end Router

namespace Transcript

/-- What the bytes of a connection have said: the deliveries, and why the connection has failed,
if it has. -/
inductive Dispatched (max : Nat) (bs : Bytes) : List Delivery → Option FrameError → Prop where
  /-- All frames have been dispatched, and nothing was rejected. -/
  | whole {r : Router} {ds : List Delivery} (ending : (Frame.decodeAll max bs).2.1 = .incomplete)
    (routed : Router.Dispatches {} (Frame.decodeAll max bs).1 ds r) : Dispatched max bs ds none
  /-- All frames have been dispatched; they are followed by bytes that are no frame. -/
  | undecodable {r : Router} {ds : List Delivery} {e : FrameError}
    (ending : (Frame.decodeAll max bs).2.1 = .rejected e)
    (routed : Router.Dispatches {} (Frame.decodeAll max bs).1 ds r)
    (increasing : r.live.Pairwise (· < ·)) :
    Dispatched max bs (ds ++ r.live.map fun stream => .event stream .connectionFailed) (some e)
  /-- The frames before one that cannot be routed have been dispatched. -/
  | unroutable {r : Router} {before after : List Frame} {f : Frame} {ds : List Delivery}
    {e : FrameError} (frames : (Frame.decodeAll max bs).1 = before ++ f :: after)
    (routed : Router.Dispatches {} before ds r) (refused : r.dispatch f = .error e)
    (increasing : r.live.Pairwise (· < ·)) :
    Dispatched max bs (ds ++ r.live.map fun stream => .event stream .connectionFailed) (some e)

/-- Either all frames are dispatched before the ending, or one of them cannot be routed. -/
theorem ofFrames_cases (ending : Frame.Ending) (r : Router) (frames : List Frame) :
    (∃ ds r', Router.Dispatches r frames ds r' ∧
        ofFrames ending r frames = (ofFrames ending r' []).after ds) ∨
      ∃ before f after ds r' e, frames = before ++ f :: after ∧
        Router.Dispatches r before ds r' ∧ r'.dispatch f = .error e ∧
          ofFrames ending r frames = (failing e r').after ds := by
  induction frames generalizing r with
  | nil => exact Or.inl ⟨[], r, .nil r, rfl⟩
  | cons f rest ih =>
    cases hd : r.dispatch f with
    | error e =>
      refine Or.inr ⟨[], f, rest, [], r, e, rfl, .nil r, hd, ?_⟩
      rw [ofFrames, hd]
      rfl
    | ok answer =>
      obtain ⟨ds, r₁⟩ := answer
      rw [ofFrames, hd]
      rcases ih r₁ with ⟨es, r', hrest, heq⟩ | ⟨before, g, after, es, r', e, rfl, hrest, hg, heq⟩
      · refine Or.inl ⟨ds ++ es, r', .cons hd hrest, ?_⟩
        rw [← after_after, ← heq]
      · refine Or.inr ⟨f :: before, g, after, ds ++ es, r', e, rfl, .cons hd hrest, hg, ?_⟩
        rw [← after_after, ← heq]

/-- A transcript says what its frames say, dispatched in order. -/
theorem dispatched_ofBytes (max : Nat) (bs : Bytes) :
    Dispatched max bs (ofBytes max bs).deliveries (ofBytes max bs).failure := by
  rw [ofBytes, ofBuffer]
  rcases ofFrames_cases (Frame.decodeAll max bs).2.1 {} (Frame.decodeAll max bs).1 with
    ⟨ds, r, hrouted, heq⟩ | ⟨before, f, after, ds, r, e, hframes, hrouted, hrefused, heq⟩
  · rw [heq]
    cases hending : (Frame.decodeAll max bs).2.1 with
    | incomplete =>
      have hds : ((ofFrames .incomplete r []).after ds).deliveries = ds := List.append_nil ds
      rw [hds]
      exact .whole hending hrouted
    | rejected e =>
      exact .undecodable hending hrouted (Router.ordered_new.dispatches hrouted).increasing
  · rw [heq]
    exact .unroutable hframes hrouted hrefused (Router.ordered_new.dispatches hrouted).increasing

end Transcript
end RequestFeed
