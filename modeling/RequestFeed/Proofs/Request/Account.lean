import RequestFeed.Proofs.Stream.Transcript
import RequestFeed.Request.Projection
/-!
# Accounts of requests

The account of a connection lists the requests of its streams, in the order in which the streams
were created, each with everything that it has produced. Nothing is ever read from an account, so
it is what a feed, from which bytes are taken, is compared with.

*Serving in turn.* `InTurn` says which outputs serve the requests of an account one after the
other: a request is served only when all requests before it are complete, have not failed, and
have been served in full.

*Results.*
* `Projection.coherent_step`: a request is finished exactly when its output has ended.
* `InTurn.prefix_flatMap` and `InTurn.complete_of_length_lt`: what serving in turn means byte by
  byte.
* `InTurn.record` and `isBlocked_record`: what has been served stays in turn, and a failure that
  is next in turn stays next, whatever happens to the streams later.
* `Transcript.unfinishedIn_ofBytes`: the requests that have not finished are those of live
  streams.
-/

namespace RequestFeed

namespace Projection

/-- Everything that a request has produced and nobody has read. -/
def written (p : Projection) : Bytes := p.output.held.bytes

/-- The request is finished exactly when its output has ended. -/
def Coherent (p : Projection) : Prop := p.isFinished = true ↔ p.output.growth ≠ .growing

theorem coherent_new (stream : StreamId) : Coherent { stream } := by
  simp [Coherent, isFinished]

theorem isFinished_eq_false_iff {p : Projection} (h : p.Coherent) :
    p.isFinished = false ↔ p.output.growth = .growing := by
  have := h
  unfold Coherent at this
  cases hf : p.isFinished <;> simp_all

@[simp] theorem stream_step (e : StreamEvent) (p : Projection) :
    (p.step e).1.stream = p.stream := by
  unfold step
  split
  · rfl
  · split <;> rfl

theorem step_of_isFinished {p : Projection} (h : p.isFinished = true) (e : StreamEvent) :
    p.step e = (p, []) := by
  simp [step, h]

theorem step_of_error {p : Projection} {e : StreamEvent} {cause : ProjectionError}
    (h : p.isFinished = false) (ha : p.stage.advance e = .error cause) :
    (p.step e).1 = { p with stage := .finished, output := p.output.fail } := by
  simp [step, h, ha]

theorem step_of_ok {p : Projection} {e : StreamEvent} {bs : Bytes} {stage : ProjectionStage}
    (h : p.output.growth = .growing) (hf : p.isFinished = false)
    (ha : p.stage.advance e = .ok (bs, stage)) :
    (p.step e).1 =
      { p with
        stage
        output :=
          { held := p.output.held.push bs
            growth := if stage = .finished then .complete else .growing } } := by
  have hc : p.output.isComplete = false := by simp [Accumulator.isComplete, h]
  have hp : p.output.append bs = ({ p.output with held := p.output.held.push bs }, []) := by
    simp [Accumulator.append, hc]
  simp only [step, hf, ha, hp, Bool.false_eq_true, if_false]
  by_cases hs : stage = .finished
  · simp [hs, Accumulator.complete, Accumulator.hasError, h]
  · simp [hs, h]

theorem coherent_step {p : Projection} (h : p.Coherent) (e : StreamEvent) :
    (p.step e).1.Coherent := by
  cases hf : p.isFinished with
  | true =>
    rw [step_of_isFinished hf]
    exact h
  | false =>
    have hg := (isFinished_eq_false_iff h).mp hf
    cases ha : p.stage.advance e with
    | error cause =>
      rw [step_of_error hf ha]
      simp [Coherent, isFinished, Accumulator.fail]
    | ok answer =>
      rw [step_of_ok hg hf ha]
      by_cases hs : answer.2 = .finished <;> simp [Coherent, isFinished, hs]

/-- Events add to what a request has produced, and take nothing away. -/
theorem written_prefix_step {p : Projection} (h : p.Coherent) (e : StreamEvent) :
    p.written <+: (p.step e).1.written := by
  cases hf : p.isFinished with
  | true => simp [step_of_isFinished hf]
  | false =>
    have hg := (isFinished_eq_false_iff h).mp hf
    cases ha : p.stage.advance e with
    | error cause => simp [step_of_error hf ha, written, Accumulator.fail]
    | ok answer => simp [step_of_ok hg hf ha, written]

end Projection

/-- An event after which nothing more happens to a stream finishes its request. -/
theorem ProjectionStage.finished_of_isTerminal {stage : ProjectionStage} {e : StreamEvent}
    (h : e.isTerminal = true) {bs : Bytes} {stage' : ProjectionStage}
    (ha : stage.advance e = .ok (bs, stage')) : stage' = .finished := by
  cases stage with
  | finished =>
    cases e <;> simp [advance, pure, Except.pure] at ha <;> simp [ha]
  | awaitingOpening =>
    cases e with
    | opened headers fin =>
      simp only [StreamEvent.isTerminal] at h
      subst h
      simp only [advance, Bool.not_true, Bool.false_and, bind, Except.bind, pure, Except.pure] at ha
      cases hr : RequestHead.render headers false with
      | error cause => simp [hr] at ha
      | ok head =>
        simp only [hr, Except.ok.injEq, Prod.mk.injEq] at ha
        exact ha.2.symm
    | _ => simp [advance, throw, throwThe, MonadExceptOf.throw] at ha
  | body chunked =>
    cases e with
    | data bytes fin =>
      simp only [StreamEvent.isTerminal] at h
      subst h
      simp only [advance, pure, Except.pure, Except.ok.injEq, Prod.mk.injEq] at ha
      exact ha.2.symm
    | _ => simp [advance, throw, throwThe, MonadExceptOf.throw] at ha

namespace Projection

theorem isFinished_step_of_isTerminal {p : Projection} (h : p.Coherent) {e : StreamEvent}
    (he : e.isTerminal = true) : (p.step e).1.isFinished = true := by
  cases hf : p.isFinished with
  | true =>
    rw [step_of_isFinished hf]
    exact hf
  | false =>
    have hg := (isFinished_eq_false_iff h).mp hf
    cases ha : p.stage.advance e with
    | error cause =>
      rw [step_of_error hf ha]
      rfl
    | ok answer =>
      rw [step_of_ok hg hf ha]
      simp [isFinished, ProjectionStage.finished_of_isTerminal he ha]

/-- A request takes notice of a delivery that is for its stream. -/
def hear (d : Delivery) (p : Projection) : Projection :=
  match d with
  | .created _ => p
  | .event stream e => if p.stream = stream then (p.step e).1 else p

theorem hear_eq (d : Delivery) (p : Projection) :
    p.hear d = p ∨ ∃ e, p.hear d = (p.step e).1 := by
  cases d with
  | created stream => exact Or.inl rfl
  | event stream e =>
    by_cases hs : p.stream = stream
    · exact Or.inr ⟨e, if_pos hs⟩
    · exact Or.inl (if_neg hs)

@[simp] theorem stream_hear (d : Delivery) (p : Projection) : (p.hear d).stream = p.stream := by
  rcases p.hear_eq d with h | ⟨e, h⟩
  · rw [h]
  · rw [h, stream_step]

theorem coherent_hear {p : Projection} (h : p.Coherent) (d : Delivery) : (p.hear d).Coherent := by
  rcases p.hear_eq d with hd | ⟨e, hd⟩
  · rw [hd]
    exact h
  · rw [hd]
    exact coherent_step h e

theorem written_prefix_hear {p : Projection} (h : p.Coherent) (d : Delivery) :
    p.written <+: (p.hear d).written := by
  rcases p.hear_eq d with hd | ⟨e, hd⟩
  · simp [hd]
  · rw [hd]
    exact written_prefix_step h e

theorem hear_of_isFinished {p : Projection} (h : p.isFinished = true) (d : Delivery) :
    p.hear d = p := by
  rcases p.hear_eq d with hd | ⟨e, hd⟩
  · exact hd
  · rw [hd, step_of_isFinished h]

/-- A request whose output has ended hears nothing more. -/
theorem hear_of_ne_growing {p : Projection} (h : p.Coherent) (hg : p.output.growth ≠ .growing)
    (d : Delivery) : p.hear d = p :=
  hear_of_isFinished (h.mpr hg) d

end Projection

/-- The requests of streams, in the order in which the streams were created. -/
abbrev Account := List Projection

namespace Account

/-- The request of a stream that is created. -/
def fresh : Delivery → Account
  | .created stream => [{ stream }]
  | .event _ _ => []

/-- What a delivery makes of the requests. -/
def record (d : Delivery) (ps : Account) : Account := ps.map (·.hear d) ++ fresh d

/-- What deliveries make of the requests. -/
def recordAll : List Delivery → Account → Account
  | [], ps => ps
  | d :: ds, ps => recordAll ds (record d ps)

def Coherent (ps : Account) : Prop := ∀ p ∈ ps, p.Coherent

theorem record_cons (d : Delivery) (p : Projection) (ps : Account) :
    record d (p :: ps) = p.hear d :: record d ps := rfl

theorem recordAll_append (ds es : List Delivery) (ps : Account) :
    recordAll (ds ++ es) ps = recordAll es (recordAll ds ps) := by
  induction ds generalizing ps with
  | nil => rfl
  | cons d ds ih => exact ih _

theorem Coherent.record {ps : Account} (h : Coherent ps) (d : Delivery) :
    Coherent (record d ps) := by
  intro p hp
  rcases List.mem_append.mp hp with hp | hp
  · obtain ⟨q, hq, rfl⟩ := List.mem_map.mp hp
    exact Projection.coherent_hear (h q hq) d
  · cases d with
    | created stream =>
      rw [List.mem_singleton.mp hp]
      exact Projection.coherent_new stream
    | event stream e => simp [fresh] at hp

theorem Coherent.recordAll {ps : Account} (h : Coherent ps) (ds : List Delivery) :
    Coherent (recordAll ds ps) := by
  induction ds generalizing ps with
  | nil => exact h
  | cons d ds ih => exact ih (h.record d)

end Account

/-- The requests that a transcript makes. -/
def Transcript.requests (t : Transcript) : Account := Account.recordAll t.deliveries []

theorem Transcript.coherent_requests (t : Transcript) : t.requests.Coherent :=
  Account.Coherent.recordAll (fun _ h => absurd h List.not_mem_nil) _

namespace Account

/-- The output serves the requests one after the other. -/
inductive InTurn : Account → Bytes → Prop where
  /-- Nothing is served of the requests that are left. -/
  | stop (ps : Account) : InTurn ps []
  /-- A part of the next request is served. -/
  | part {p : Projection} {ps : Account} {out : Bytes} :
    out <+: p.written → InTurn (p :: ps) out
  /-- The next request is complete and served in full, and then others are. -/
  | next {p : Projection} {ps : Account} {out : Bytes} :
    p.output.growth = .complete → InTurn ps out → InTurn (p :: ps) (p.written ++ out)

/-- The first request that is not complete has failed. -/
def isBlocked : Account → Bool
  | [] => false
  | p :: ps =>
    match p.output.growth with
    | .growing => false
    | .failed => true
    | .complete => isBlocked ps

/-- The requests up to the first that is not finished, this one included. -/
def throughGrowing : Account → Account
  | [] => []
  | p :: ps => if p.output.isComplete then p :: throughGrowing ps else [p]

/-- The requests before the first that is not complete. -/
def leading : Account → Account
  | [] => []
  | p :: ps => if p.output.growth = .complete then p :: leading ps else []

variable {ps : Account} {out : Bytes}

/-- What is served comes in the order of the requests, without loss or repetition. -/
theorem InTurn.prefix_flatMap (h : InTurn ps out) : out <+: ps.flatMap Projection.written := by
  induction h with
  | stop ps => exact List.nil_prefix
  | part hp => exact hp.trans (List.prefix_append _ _)
  | next hg _ ih =>
    rw [List.flatMap_cons]
    exact (List.prefix_append_right_inj _).mpr ih

/-- Bytes beyond the first requests are served only when these are complete. -/
theorem InTurn.complete_of_length_lt (h : InTurn ps out) {n : Nat}
    (hn : ((ps.take n).flatMap Projection.written).length < out.length) :
    ∀ p ∈ ps.take n, p.output.growth = .complete := by
  induction h generalizing n with
  | stop ps => simp at hn
  | @part p ps out hp =>
    cases n with
    | zero => simp
    | succ n =>
      have := hp.length_le
      simp only [List.take_succ_cons, List.flatMap_cons, List.length_append] at hn
      omega
  | @next p ps out hg _ ih =>
    cases n with
    | zero => simp
    | succ n =>
      intro q hq
      rw [List.take_succ_cons, List.mem_cons] at hq
      rcases hq with rfl | hq
      · exact hg
      · refine ih ?_ q hq
        simp only [List.take_succ_cons, List.flatMap_cons, List.length_append] at hn
        omega

/-- What has been served in turn has been served in turn after any delivery. -/
theorem InTurn.record (h : InTurn ps out) (hc : Coherent ps) (d : Delivery) :
    InTurn (record d ps) out := by
  induction h with
  | stop ps => exact .stop _
  | @part p ps out hp =>
    have := hc p List.mem_cons_self
    exact .part (hp.trans (Projection.written_prefix_hear this d))
  | @next p ps out hg _ ih =>
    have hp := hc p List.mem_cons_self
    rw [record_cons, Projection.hear_of_ne_growing hp (by simp [hg])]
    exact .next hg (ih fun q hq => hc q (List.mem_cons_of_mem p hq))

theorem InTurn.recordAll (h : InTurn ps out) (hc : Coherent ps) (ds : List Delivery) :
    InTurn (recordAll ds ps) out := by
  induction ds generalizing ps with
  | nil => exact h
  | cons d ds ih => exact ih (h.record hc d) (hc.record d)

/-- A failure that is next in turn stays next. -/
theorem isBlocked_record (h : isBlocked ps = true) (hc : Coherent ps) (d : Delivery) :
    isBlocked (record d ps) = true := by
  induction ps with
  | nil => simp [isBlocked] at h
  | cons p ps ih =>
    have hp := hc p List.mem_cons_self
    rw [isBlocked] at h
    cases hg : p.output.growth with
    | growing => simp [hg] at h
    | failed =>
      rw [record_cons, Projection.hear_of_ne_growing hp (by simp [hg])]
      simp [isBlocked, hg]
    | complete =>
      rw [record_cons, Projection.hear_of_ne_growing hp (by simp [hg])]
      simp only [isBlocked, hg] at h ⊢
      exact ih h fun q hq => hc q (List.mem_cons_of_mem p hq)

theorem isBlocked_recordAll (h : isBlocked ps = true) (hc : Coherent ps) (ds : List Delivery) :
    isBlocked (recordAll ds ps) = true := by
  induction ds generalizing ps with
  | nil => exact h
  | cons d ds ih => exact ih (isBlocked_record h hc d) (hc.record d)

end Account

/-- The requests that have not finished belong to streams among these. -/
def Account.UnfinishedIn (live : List StreamId) (ps : Account) : Prop :=
  ∀ p ∈ ps, p.isFinished = false → p.stream ∈ live

theorem Account.UnfinishedIn.record_event {r : Router} {ps : Account}
    (h : ps.UnfinishedIn r.live) (hc : ps.Coherent) (stream : StreamId) (e : StreamEvent) :
    UnfinishedIn (r.settle stream e).live (record (.event stream e) ps) := by
  intro p hp hf
  simp only [record, fresh, List.append_nil, List.mem_map] at hp
  obtain ⟨q, hq, rfl⟩ := hp
  have hqf : q.isFinished = false := by
    cases hqf : q.isFinished with
    | false => rfl
    | true =>
      rw [Projection.hear_of_isFinished hqf, hqf] at hf
      exact hf
  rw [Projection.stream_hear]
  unfold Router.settle
  split
  next he =>
    rw [List.mem_filter]
    refine ⟨h q hq hqf, ?_⟩
    by_cases hs : q.stream = stream
    · have := Projection.isFinished_step_of_isTerminal (hc q hq) he
      simp [Projection.hear, hs, this] at hf
    · simpa using hs
  · exact h q hq hqf

theorem Router.Routes.unfinishedIn {r r' : Router} {ds : List Delivery} (h : r.Routes ds r')
    {ps : Account} (hc : ps.Coherent) (hl : ps.UnfinishedIn r.live) :
    (Account.recordAll ds ps).UnfinishedIn r'.live := by
  cases h with
  | silent hlive _ =>
    rw [hlive]
    exact hl
  | known e _ => exact hl.record_event hc _ e
  | @fresh stream e _ =>
    refine Account.UnfinishedIn.record_event
      (r := { r with live := r.live ++ [stream], highest := stream }) ?_ (hc.record _) stream e
    intro p hp hf
    rcases List.mem_append.mp hp with hp | hp
    · obtain ⟨q, hq, rfl⟩ := List.mem_map.mp hp
      exact List.mem_append_left _ (hl q hq hf)
    · rw [List.mem_singleton.mp hp]
      exact List.mem_append_right _ (List.mem_singleton.mpr rfl)

/-- When every live stream has been told that the connection failed, all requests are finished. -/
theorem Account.UnfinishedIn.recordAll_fail {live : List StreamId} {ps : Account}
    (h : ps.UnfinishedIn live) (hc : ps.Coherent) :
    (recordAll (live.map fun stream => .event stream .connectionFailed) ps).UnfinishedIn [] := by
  induction live generalizing ps with
  | nil => exact h
  | cons stream rest ih =>
    have hsettled := record_event (r := { live := stream :: rest }) h hc stream .connectionFailed
    refine ih (fun p hp hf => ?_) (hc.record _)
    have := hsettled p hp hf
    simp [Router.settle, StreamEvent.isTerminal] at this
    exact this.1

theorem Transcript.unfinishedIn_ofFrames (ending : Frame.Ending) {r : Router}
    (frames : List Frame) {ps : Account} (hc : ps.Coherent) (hl : ps.UnfinishedIn r.live) :
    (Account.recordAll (ofFrames ending r frames).deliveries ps).UnfinishedIn
      (ofFrames ending r frames).router.live := by
  induction frames generalizing r ps with
  | nil =>
    cases ending with
    | incomplete => exact hl
    | rejected e => exact hl.recordAll_fail hc
  | cons f rest ih =>
    rw [ofFrames]
    cases hd : r.dispatch f with
    | error e => exact hl.recordAll_fail hc
    | ok answer =>
      have hroutes := Router.routes_of_dispatch hd
      simp only [deliveries_after, router_after, Account.recordAll_append]
      exact ih (hc.recordAll _) (hroutes.unfinishedIn hc hl)

/-- The requests of a connection that have not finished belong to live streams. -/
theorem Transcript.unfinishedIn_ofBytes (max : Nat) (bs : Bytes) :
    (ofBytes max bs).requests.UnfinishedIn (ofBytes max bs).router.live :=
  unfinishedIn_ofFrames _ _ (fun _ h => absurd h List.not_mem_nil)
    (fun _ h => absurd h List.not_mem_nil)

end RequestFeed
