import RequestFeed.Proofs.Request.Account
/-!
# What streams produce

The events of a stream produce a request piece by piece: every event adds its bytes, until one ends
the request or breaks it. Put together, the pieces are what the stream has produced. No output has
to hold them for that, so an account, in which outputs hold them, is compared with this.

*Results.*
* `Projection.production_run`: an output that events are written to holds the pieces, and ends as
  they do.
* `Transcript.map_production_requests`: so do the outputs of an account, in the order in which the
  streams were created.
-/

namespace RequestFeed

/-- What events add to a request from here on, one after the other, and whether more will come. -/
def ProjectionStage.produce (stage : ProjectionStage) : List StreamEvent → Bytes × Growth
  | [] => ([], if stage = .finished then .complete else .growing)
  | e :: es =>
    match stage.advance e with
    | .error _ => ([], .failed)
    | .ok (bs, next) => (bs ++ (next.produce es).1, (next.produce es).2)

/-- What a stream has produced so far. -/
structure Production where
  stream : StreamId
  bytes : Bytes
  growth : Growth
  deriving DecidableEq, Repr

/-- What a stream has produced that has brought these events. -/
def Production.ofEvents (stream : StreamId) (es : List StreamEvent) : Production :=
  let (bytes, growth) := ProjectionStage.awaitingOpening.produce es
  { stream, bytes, growth }

/-- What was produced by the streams up to the first that still grows, this one included. -/
def Production.throughGrowing : List Production → List Production
  | [] => []
  | p :: ps => if p.growth = .growing then [p] else p :: throughGrowing ps

namespace Delivery

/-- The event that a delivery brings to a stream. -/
def eventFor? (stream : StreamId) : Delivery → Option StreamEvent
  | .created _ => none
  | .event other e => if other = stream then some e else none

/-- What the streams produce that these deliveries create, in the order in which they do. -/
def productions : List Delivery → List Production
  | [] => []
  | .created stream :: ds =>
    .ofEvents stream (ds.filterMap (eventFor? stream)) :: productions ds
  | .event _ _ :: ds => productions ds

end Delivery

/-- What the streams of a connection produce, in the order in which they are created. -/
def Transcript.productions (t : Transcript) : List Production :=
  Delivery.productions t.deliveries

/-! ### One request -/

theorem ProjectionStage.produce_finished (es : List StreamEvent) :
    ProjectionStage.finished.produce es = ([], .complete) := by
  induction es with
  | nil => rfl
  | cons e es ih =>
    have hignored : ProjectionStage.finished.advance e = .ok ([], .finished) := by
      cases e <;> rfl
    rw [produce, hignored]
    simp [ih]

namespace Projection

/-- A request after some events of its stream. -/
def run (es : List StreamEvent) (p : Projection) : Projection :=
  es.foldl (fun p e => (p.step e).1) p

variable {p : Projection}

@[simp] theorem run_nil (p : Projection) : p.run [] = p := rfl

@[simp] theorem run_cons (e : StreamEvent) (es : List StreamEvent) (p : Projection) :
    p.run (e :: es) = (p.step e).1.run es := rfl

theorem run_of_isFinished (h : p.isFinished = true) (es : List StreamEvent) : p.run es = p := by
  induction es with
  | nil => rfl
  | cons e es ih => rw [run_cons, step_of_isFinished h, ih]

theorem run_append (es others : List StreamEvent) (p : Projection) :
    p.run (es ++ others) = (p.run es).run others :=
  List.foldl_append

/-- What a request has produced, as its output holds it. -/
def production (p : Projection) : Production := ⟨p.stream, p.written, p.output.growth⟩

/-- An output that events are written to holds what they produce, and ends as they do. -/
theorem production_run (hf : p.isFinished = false) (hg : p.output.growth = .growing)
    (es : List StreamEvent) :
    (p.run es).production =
      ⟨p.stream, p.written ++ (p.stage.produce es).1, (p.stage.produce es).2⟩ := by
  induction es generalizing p with
  | nil =>
    have hstage : p.stage ≠ .finished := by simpa [isFinished] using hf
    simp [production, ProjectionStage.produce, hstage, hg]
  | cons e es ih =>
    rw [run_cons, ProjectionStage.produce]
    cases ha : p.stage.advance e with
    | error cause =>
      rw [step_of_error hf ha, run_of_isFinished rfl]
      simp [production, written, Accumulator.fail]
    | ok answer =>
      obtain ⟨bs, next⟩ := answer
      rw [step_of_ok hg hf ha]
      by_cases hnext : next = .finished
      · subst hnext
        rw [run_of_isFinished rfl]
        simp [production, written, ProjectionStage.produce_finished]
      · rw [ih (by simpa [isFinished] using hnext) (if_neg hnext)]
        simp [written]

theorem production_run_new (stream : StreamId) (es : List StreamEvent) :
    (run es { stream }).production = .ofEvents stream es :=
  production_run rfl rfl es

/-- A request hears of deliveries what they bring to its stream. -/
theorem foldl_hear (ds : List Delivery) (p : Projection) :
    ds.foldl (fun p d => p.hear d) p = p.run (ds.filterMap (Delivery.eventFor? p.stream)) := by
  induction ds generalizing p with
  | nil => rfl
  | cons d ds ih =>
    rw [List.foldl_cons, ih, stream_hear]
    cases d with
    | created stream => rfl
    | event stream e =>
      by_cases hs : stream = p.stream
      · simp [Delivery.eventFor?, hear, hs]
      · simp [Delivery.eventFor?, hear, hs, Ne.symm hs]

end Projection

/-! ### All requests -/

namespace Account

/-- Requests that there are hear of the deliveries, and those that are created come after them. -/
theorem recordAll_eq (ds : List Delivery) (ps : Account) :
    recordAll ds ps =
      ps.map (fun p => ds.foldl (fun p d => p.hear d) p) ++ recordAll ds [] := by
  induction ds generalizing ps with
  | nil => simp [recordAll]
  | cons d ds ih =>
    rw [recordAll, recordAll, ih (record d ps), ih (record d [])]
    simp [record, Function.comp_def]

theorem map_production_recordAll (ds : List Delivery) :
    (recordAll ds []).map Projection.production = Delivery.productions ds := by
  induction ds with
  | nil => rfl
  | cons d ds ih =>
    cases d with
    | event stream e => exact ih
    | created stream =>
      have hfirst : recordAll (.created stream :: ds) [] = recordAll ds [{ stream }] := rfl
      rw [hfirst, recordAll_eq, List.map_append, ih, Delivery.productions]
      simp [Projection.foldl_hear, Projection.production_run_new]

end Account

/-- The outputs of the requests of a connection hold what its streams produce. -/
theorem Transcript.map_production_requests (t : Transcript) :
    t.requests.map Projection.production = t.productions :=
  Account.map_production_recordAll t.deliveries

/-- The requests up to the first that still grows are those of the streams up to it. -/
theorem Account.map_production_throughGrowing (ps : Account) :
    ps.throughGrowing.map Projection.production =
      Production.throughGrowing (ps.map Projection.production) := by
  induction ps with
  | nil => rfl
  | cons p ps ih =>
    rw [throughGrowing, List.map_cons, Production.throughGrowing]
    cases hg : p.output.growth <;>
      simp [Projection.production, Accumulator.isComplete, hg, ih]

end RequestFeed
