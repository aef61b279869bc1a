import RequestFeed.Proofs.Frame.Decoding
import RequestFeed.Stream.Router
/-!
# Transcripts

The transcript of a connection says what its bytes mean: the frames are decoded one after the
other and routed in order. The first bytes that are no frame, and the first frame that cannot be
routed, end the transcript; every stream that is live then is told that the connection failed.

A transcript knows nothing of pieces, buffers and readers. It is what the parts that work on
pieces are compared with.

*Results.*
* `Transcript.ofBuffer_append` and `Transcript.ofBuffer_append_of_failure`: a transcript that has
  not failed is continued by more bytes, and one that has failed is final.
* `Router.accepts_of_dispatch`: the ways in which a frame is accepted.
* `Router.Routes`: what they come to for those who only follow the streams.
* `Transcript.opens_ofBuffer`: streams are created with increasing numbers.
-/

namespace RequestFeed

/-- What the bytes of a connection say to its streams. -/
structure Transcript where
  deliveries : List Delivery
  /-- What is known about the streams afterwards. -/
  router : Router
  /-- Why the connection has failed, if it has. -/
  failure : Option FrameError
  deriving DecidableEq, Repr

namespace Transcript

/-- Deliveries that come before a transcript. -/
def after (ds : List Delivery) (t : Transcript) : Transcript :=
  { t with deliveries := ds ++ t.deliveries }

/-- The transcript of a connection that fails at once. -/
def failing (e : FrameError) (r : Router) : Transcript :=
  { deliveries := r.fail.1, router := r.fail.2, failure := some e }

/-- What frames say, and what is said when the last of them is followed by an ending. -/
def ofFrames (ending : Frame.Ending) (r : Router) : List Frame → Transcript
  | [] =>
    match ending with
    | .incomplete => { deliveries := [], router := r, failure := none }
    | .rejected e => failing e r
  | f :: rest =>
    match r.dispatch f with
    | .error e => failing e r
    | .ok (ds, r) => (ofFrames ending r rest).after ds

/-- What a buffer says to the streams that a router knows. -/
def ofBuffer (max : Nat) (r : Router) (buffer : Bytes) : Transcript :=
  ofFrames (Frame.decodeAll max buffer).2.1 r (Frame.decodeAll max buffer).1

/-- What the bytes of a connection say from its start. -/
def ofBytes (max : Nat) (bs : Bytes) : Transcript := ofBuffer max {} bs

@[simp] theorem deliveries_after (ds : List Delivery) (t : Transcript) :
    (t.after ds).deliveries = ds ++ t.deliveries := rfl

@[simp] theorem router_after (ds : List Delivery) (t : Transcript) :
    (t.after ds).router = t.router := rfl

@[simp] theorem failure_after (ds : List Delivery) (t : Transcript) :
    (t.after ds).failure = t.failure := rfl

@[simp] theorem failure_failing (e : FrameError) (r : Router) :
    (failing e r).failure = some e := rfl

theorem after_after (ds es : List Delivery) (t : Transcript) :
    (t.after es).after ds = t.after (ds ++ es) := by
  simp [after]

variable {max : Nat} {r : Router}

/-- Frames that all can be routed are followed by what comes after them. -/
theorem ofFrames_append {frames : List Frame} (h : (ofFrames .incomplete r frames).failure = none)
    (ending : Frame.Ending) (more : List Frame) :
    ofFrames ending r (frames ++ more) =
      (ofFrames ending (ofFrames .incomplete r frames).router more).after
        (ofFrames .incomplete r frames).deliveries := by
  induction frames generalizing r with
  | nil => rfl
  | cons f rest ih =>
    rw [List.cons_append, ofFrames, ofFrames]
    rw [ofFrames] at h
    cases hd : r.dispatch f with
    | error e => simp [hd] at h
    | ok answer =>
      simp only [hd, failure_after] at h ⊢
      rw [ih h, after_after]
      rfl

/-- Nothing that follows a frame that cannot be routed is heard. -/
theorem ofFrames_append_of_failure {frames : List Frame} {e : FrameError}
    (h : (ofFrames .incomplete r frames).failure = some e) (ending : Frame.Ending)
    (more : List Frame) :
    ofFrames ending r (frames ++ more) = ofFrames .incomplete r frames := by
  induction frames generalizing r with
  | nil => simp [ofFrames] at h
  | cons f rest ih =>
    rw [List.cons_append, ofFrames, ofFrames]
    rw [ofFrames] at h
    cases hd : r.dispatch f with
    | error e' => rfl
    | ok answer =>
      simp only [hd, failure_after] at h ⊢
      rw [ih h]

/-- A transcript without failure comes from a buffer in which nothing was rejected. -/
theorem incomplete_of_failure_eq_none {buffer : Bytes}
    (h : (ofBuffer max r buffer).failure = none) :
    (Frame.decodeAll max buffer).2.1 = .incomplete := by
  unfold ofBuffer at h
  generalize Frame.decodeAll max buffer = decoded at h ⊢
  obtain ⟨frames, ending, left⟩ := decoded
  cases ending with
  | incomplete => rfl
  | rejected e =>
    -- the failure would come at the latest after the last frame
    exfalso
    induction frames generalizing r with
    | nil => simp [ofFrames] at h
    | cons f rest ih =>
      simp only [ofFrames] at h ih
      cases hd : r.dispatch f with
      | error e' => simp [hd] at h
      | ok answer =>
        simp only [hd, failure_after] at h
        exact ih h

/-- A transcript that has not failed is continued by what comes in. -/
theorem ofBuffer_append {buffer : Bytes} (h : (ofBuffer max r buffer).failure = none)
    (more : Bytes) :
    ofBuffer max r (buffer ++ more) =
      (ofBuffer max (ofBuffer max r buffer).router
        ((Frame.decodeAll max buffer).2.2 ++ more)).after (ofBuffer max r buffer).deliveries := by
  have hending := incomplete_of_failure_eq_none h
  have hdecode := Frame.decodeAll_append hending more
  unfold ofBuffer at h ⊢
  rw [hending] at h ⊢
  rw [hdecode]
  exact ofFrames_append h _ _

/-- A transcript that has failed is final. -/
theorem ofBuffer_append_of_failure {buffer : Bytes} {e : FrameError}
    (h : (ofBuffer max r buffer).failure = some e) (more : Bytes) :
    ofBuffer max r (buffer ++ more) = ofBuffer max r buffer := by
  unfold ofBuffer at h ⊢
  cases hending : (Frame.decodeAll max buffer).2.1 with
  | incomplete =>
    rw [hending] at h
    rw [Frame.decodeAll_append hending more]
    exact ofFrames_append_of_failure h _ _
  | rejected e' =>
    obtain ⟨hframes, hagain⟩ := Frame.decodeAll_append_of_rejected hending more
    rw [hframes, hagain]

/-- After a failure no stream is live. -/
theorem live_of_failure {ending : Frame.Ending} {frames : List Frame} {e : FrameError}
    (h : (ofFrames ending r frames).failure = some e) :
    (ofFrames ending r frames).router.live = [] := by
  induction frames generalizing r with
  | nil =>
    cases ending with
    | incomplete => simp [ofFrames] at h
    | rejected e' => rfl
  | cons f rest ih =>
    rw [ofFrames] at h ⊢
    cases hd : r.dispatch f with
    | error e' => rfl
    | ok answer =>
      simp only [hd, failure_after] at h
      exact ih h

@[simp] theorem ofBytes_nil (max : Nat) :
    ofBytes max [] = { deliveries := [], router := {}, failure := none } := by
  have : Frame.decode max [] = .incomplete := rfl
  simp [ofBytes, ofBuffer, Frame.decodeAll_of_incomplete this, ofFrames]

theorem ofBuffer_of_incomplete {buffer : Bytes} (h : Frame.decode max buffer = .incomplete) :
    ofBuffer max r buffer = { deliveries := [], router := r, failure := none } := by
  simp [ofBuffer, Frame.decodeAll_of_incomplete h, ofFrames]

theorem ofBuffer_of_rejected {buffer : Bytes} {e : FrameError}
    (h : Frame.decode max buffer = .rejected e) : ofBuffer max r buffer = failing e r := by
  simp [ofBuffer, Frame.decodeAll_of_rejected h, ofFrames]

theorem ofBuffer_of_dispatch_error {buffer rest : Bytes} {f : Frame} {e : FrameError}
    (h : Frame.decode max buffer = .frame f rest) (hd : r.dispatch f = .error e) :
    ofBuffer max r buffer = failing e r := by
  simp [ofBuffer, Frame.decodeAll_of_frame h, ofFrames, hd]

theorem ofBuffer_of_dispatch {buffer rest : Bytes} {f : Frame} {ds : List Delivery} {r' : Router}
    (h : Frame.decode max buffer = .frame f rest) (hd : r.dispatch f = .ok (ds, r')) :
    ofBuffer max r buffer = (ofBuffer max r' rest).after ds := by
  simp [ofBuffer, Frame.decodeAll_of_frame h, ofFrames, hd]

/-- Streams are created with larger numbers than all before; these are the largest number before
some deliveries and the largest after them. -/
inductive Opens : StreamId → List Delivery → StreamId → Prop where
  | nil (highest : StreamId) : Opens highest [] highest
  | created {highest stream last : StreamId} {ds : List Delivery} :
    ¬ stream ≤ highest → Opens stream ds last → Opens highest (.created stream :: ds) last
  | event {highest last : StreamId} {ds : List Delivery} (stream : StreamId) (e : StreamEvent) :
    Opens highest ds last → Opens highest (.event stream e :: ds) last

theorem Opens.append {a b c : StreamId} {ds es : List Delivery} (h : Opens a ds b)
    (k : Opens b es c) : Opens a (ds ++ es) c := by
  induction h with
  | nil => exact k
  | created hlt _ ih => exact .created hlt (ih k)
  | event stream e _ ih => exact .event stream e (ih k)

theorem opens_fail (r : Router) : Opens r.highest r.fail.1 r.fail.2.highest := by
  simp only [Router.fail]
  induction r.live with
  | nil => exact .nil _
  | cons stream rest ih => exact .event stream .connectionFailed ih

end Transcript

namespace Router

@[simp] theorem highest_settle (stream : StreamId) (e : StreamEvent) (r : Router) :
    (r.settle stream e).highest = r.highest := by
  unfold settle
  split <;> rfl

/-- The ways in which a frame is accepted. -/
inductive Accepts (r : Router) (f : Frame) : List Delivery → Router → Prop where
  | nothing (meaning : f.meaning = .ok .nothing) : Accepts r f [] r
  | goAway {last : StreamId} (meaning : f.meaning = .ok (.goAway last)) :
    Accepts r f [] { r with goAway := some last }
  /-- A live stream is told what happened. -/
  | known {e : StreamEvent} (meaning : f.meaning = .ok (.event e)) (live : f.stream ∈ r.live) :
    Accepts r f [.event f.stream e] (r.settle f.stream e)
  /-- A stream that has finished is reset. -/
  | late {e : StreamEvent} (meaning : f.meaning = .ok (.event e)) (gone : f.stream ∉ r.live)
    (past : f.stream ≤ r.highest) : Accepts r f [] r
  /-- A stream is seen for the first time. -/
  | fresh {e : StreamEvent} (meaning : f.meaning = .ok (.event e)) (later : ¬ f.stream ≤ r.highest)
    (staying : r.goAway = none) :
    Accepts r f [.created f.stream, .event f.stream e]
      (settle f.stream e { r with live := r.live ++ [f.stream], highest := f.stream })

theorem accepts_of_dispatch {f : Frame} {r r' : Router} {ds : List Delivery}
    (h : r.dispatch f = .ok (ds, r')) : r.Accepts f ds r' := by
  unfold dispatch at h
  cases hm : f.meaning with
  | error e => simp [hm, bind, Except.bind] at h
  | ok meaning =>
    rw [hm] at h
    cases meaning with
    | nothing =>
      simp only [bind, Except.bind, pure, Except.pure, Except.ok.injEq, Prod.mk.injEq] at h
      obtain ⟨rfl, rfl⟩ := h
      exact .nothing hm
    | goAway last =>
      simp only [bind, Except.bind, pure, Except.pure, Except.ok.injEq, Prod.mk.injEq] at h
      obtain ⟨rfl, rfl⟩ := h
      exact .goAway hm
    | event e =>
      simp only [bind, Except.bind, route] at h
      split at h
      next hlive =>
        simp only [Except.ok.injEq, Prod.mk.injEq] at h
        obtain ⟨rfl, rfl⟩ := h
        exact .known hm hlive
      next hgone =>
        split at h
        next hpast =>
          split at h
          · simp only [Except.ok.injEq, Prod.mk.injEq] at h
            obtain ⟨rfl, rfl⟩ := h
            exact .late hm hgone hpast
          · simp at h
        next hlater =>
          split at h
          · simp at h
          next hstaying =>
            simp only [Except.ok.injEq, Prod.mk.injEq] at h
            obtain ⟨rfl, rfl⟩ := h
            exact .fresh hm hlater (by simpa using hstaying)

/-- The ways in which a frame is routed. -/
inductive Routes (r : Router) : List Delivery → Router → Prop where
  /-- No stream is told anything. -/
  | silent {r' : Router} (live : r'.live = r.live) (highest : r'.highest = r.highest) :
    Routes r [] r'
  /-- A live stream is told what happened. -/
  | known {stream : StreamId} (event : StreamEvent) (live : stream ∈ r.live) :
    Routes r [.event stream event] (r.settle stream event)
  /-- A stream is seen for the first time. -/
  | fresh {stream : StreamId} (event : StreamEvent) (later : ¬ stream ≤ r.highest) :
    Routes r [.created stream, .event stream event]
      (settle stream event { r with live := r.live ++ [stream], highest := stream })

theorem Accepts.routes {f : Frame} {r r' : Router} {ds : List Delivery}
    (h : r.Accepts f ds r') : r.Routes ds r' := by
  cases h with
  | nothing => exact .silent rfl rfl
  | goAway => exact .silent rfl rfl
  | known _ live => exact .known _ live
  | late => exact .silent rfl rfl
  | fresh _ later => exact .fresh _ later

theorem routes_of_dispatch {f : Frame} {r r' : Router} {ds : List Delivery}
    (h : r.dispatch f = .ok (ds, r')) : r.Routes ds r' := (accepts_of_dispatch h).routes

theorem Routes.opens {r r' : Router} {ds : List Delivery} (h : r.Routes ds r') :
    Transcript.Opens r.highest ds r'.highest := by
  cases h with
  | silent _ hhighest =>
    rw [hhighest]
    exact .nil _
  | known e _ =>
    rw [highest_settle]
    exact .event _ e (.nil _)
  | fresh e hlater =>
    rw [highest_settle]
    exact .created hlater (.event _ e (.nil _))

end Router

namespace Transcript

theorem opens_ofFrames (ending : Frame.Ending) (r : Router) (frames : List Frame) :
    Opens r.highest (ofFrames ending r frames).deliveries
      (ofFrames ending r frames).router.highest := by
  induction frames generalizing r with
  | nil =>
    cases ending with
    | incomplete => exact .nil _
    | rejected e => exact opens_fail r
  | cons f rest ih =>
    rw [ofFrames]
    cases hd : r.dispatch f with
    | error e => exact opens_fail r
    | ok answer => exact (Router.routes_of_dispatch hd).opens.append (ih _)

/-- The streams of a transcript are created with increasing numbers. -/
theorem opens_ofBuffer (max : Nat) (r : Router) (buffer : Bytes) :
    Opens r.highest (ofBuffer max r buffer).deliveries (ofBuffer max r buffer).router.highest :=
  opens_ofFrames _ r _

end Transcript
end RequestFeed
