import RequestFeed.Proofs.Frame.RoundTrip
import RequestFeed.Proofs.Stream.Lifecycle
/-!
# Exchanges

An exchange is a router that makes its deliveries itself. Every live stream has a handler of its
own, made when the stream is first seen, and all handlers share a state. A frame is handed on step
by step: what a step has done is there for the next one, and an error undoes nothing.

*Results.*
* `Exchange.dispatch_eq`: handing a frame on step by step comes to what the router says of it.
* `Exchange.router_follow`: an exchange that makes the deliveries of its router knows what the
  router knows.
* `Frame.meaning_of_isValid` and `Router.error_of_isValid`: the errors that are left for frames that
  a decoder lets through.
* `Exchange.trace_of_sublist`: frames that are refused leave no trace.
* `Exchange.refusals_untraceable`: all of it, for every state of every exchange.
-/

namespace RequestFeed

/-! ### Errors of valid frames -/

/-- A valid frame says something, unless it opens a stream with what is no header block. -/
theorem Frame.meaning_of_isValid {max : Nat} {f : Frame} (h : f.IsValid max) :
    (∃ meaning, f.meaning = .ok meaning) ∨
      f.kind = .opening ∧ ∃ cause, f.meaning = .error (.invalidHeaderBlock cause) := by
  unfold Frame.meaning
  cases hk : f.kind with
  | opening =>
    unfold Frame.headerBlock
    cases HeaderBlock.decode f.payload with
    | ok block => exact Or.inl ⟨_, rfl⟩
    | error cause => exact Or.inr ⟨rfl, cause, rfl⟩
  | data => exact Or.inl ⟨_, rfl⟩
  | reset =>
    rw [Frame.code, if_pos (h.code (Or.inl hk))]
    exact Or.inl ⟨_, rfl⟩
  | ping => exact Or.inl ⟨_, rfl⟩
  | goAway =>
    rw [Frame.code, if_pos (h.code (Or.inr hk))]
    exact Or.inl ⟨_, rfl⟩

/-- Why a router refuses a valid frame. -/
theorem Router.error_of_isValid {max : Nat} {f : Frame} {r : Router} {e : FrameError}
    (h : f.IsValid max) (hd : r.dispatch f = .error e) :
    (∃ cause, e = .invalidHeaderBlock cause) ∨ e = .streamClosed f.stream ∨
      e = .streamAfterGoAway f.stream := by
  unfold Router.dispatch at hd
  rcases Frame.meaning_of_isValid h with ⟨meaning, hm⟩ | ⟨-, cause, hm⟩
  · rw [hm] at hd
    cases meaning with
    | nothing => cases hd
    | goAway last => cases hd
    | event event =>
      simp only [bind, Except.bind, Router.route] at hd
      split at hd
      · cases hd
      · split at hd
        · split at hd
          · cases hd
          · exact Or.inr (Or.inl (Except.error.inj hd).symm)
        · split at hd
          · exact Or.inr (Or.inr (Except.error.inj hd).symm)
          · cases hd
  · rw [hm] at hd
    exact Or.inl ⟨cause, (Except.error.inj hd).symm⟩

/-! ### Streams that are kept -/

namespace Router

theorem exists_live_settle (stream : StreamId) (e : StreamEvent) (r : Router) :
    ∃ kept : StreamId → Bool, (r.settle stream e).live = r.live.filter kept := by
  unfold settle
  split
  · exact ⟨_, rfl⟩
  · exact ⟨fun _ => true, (List.filter_eq_self.mpr fun _ _ => rfl).symm⟩

/-- Streams are live that were live or are new. -/
theorem Routes.exists_live {ds : List Delivery} {r r' : Router} (h : r.Routes ds r') :
    ∃ kept : StreamId → Bool, r'.live = (r.live ++ DeliveryLog.created ds).filter kept := by
  cases h with
  | silent hlive _ =>
    refine ⟨fun _ => true, ?_⟩
    rw [hlive, List.filter_eq_self.mpr fun _ _ => rfl]
    exact (List.append_nil r.live).symm
  | known e _ =>
    rw [DeliveryLog.created_event, List.append_nil]
    exact exists_live_settle _ e r
  | fresh e _ => exact exists_live_settle _ e _

end Router

/-! ### Handing frames on -/

/-- How streams are handled. The shared state is at hand whenever a handler is made or told
something. -/
structure Handling (σ η : Type) where
  create : StreamId → σ → η × σ
  tell : StreamEvent → η → σ → η × σ

/-- What is known about the streams of a connection, and the handlers of those that have not
finished. -/
structure Exchange (σ η : Type) where
  shared : σ
  handlers : List (StreamId × η) := []
  highest : StreamId := 0
  goAway : Option StreamId := none

namespace Exchange

variable {σ η : Type}

def live (x : Exchange σ η) : List StreamId := x.handlers.map Prod.fst

/-- What the router of the exchange knows. -/
def router (x : Exchange σ η) : Router :=
  { live := x.live, highest := x.highest, goAway := x.goAway }

section

variable (h : Handling σ η)

/-- Makes a handler for a stream. -/
def welcome (stream : StreamId) (x : Exchange σ η) : Exchange σ η :=
  { x with
    shared := (h.create stream x.shared).2
    handlers := x.handlers ++ [(stream, (h.create stream x.shared).1)] }

/-- Tells the handler of a stream what happened. -/
def tell (stream : StreamId) (e : StreamEvent) (x : Exchange σ η) : Exchange σ η :=
  match x.handlers.lookup stream with
  | none => x
  | some handler =>
    { x with
      shared := (h.tell e handler x.shared).2
      handlers := x.handlers.map fun entry =>
        if entry.1 = stream then (stream, (h.tell e handler x.shared).1) else entry }

def forget (stream : StreamId) (x : Exchange σ η) : Exchange σ η :=
  { x with handlers := x.handlers.filter fun entry => entry.1 ≠ stream }

/-- What is done with an exchange, step by step. An error ends it where it stands. -/
abbrev Action (σ η : Type) := ExceptT FrameError (StateM (Exchange σ η))

/-- Tells the handler of a stream what happened. After the last event the handler is forgotten. -/
def inform (stream : StreamId) (e : StreamEvent) : Action σ η Unit := do
  modify (tell h stream e)
  if e.isTerminal then modify (forget stream)

/-- Hands an event on to the handler of its stream, which is made when there has been none. -/
def handOn (stream : StreamId) (e : StreamEvent) : Action σ η Unit := do
  let x ← get
  if stream ∈ x.live then inform h stream e
  else if stream ≤ x.highest then
    if e.isReset then pure () else throw (.streamClosed stream)
  else if x.goAway.isSome then throw (.streamAfterGoAway stream)
  else
    modify fun x => { x with highest := stream }
    modify (welcome h stream)
    inform h stream e

def dispatchSteps (f : Frame) : Action σ η Unit := do
  match ← f.meaning with
  | .nothing => pure ()
  | .goAway last => modify fun x => { x with goAway := some last }
  | .event e => handOn h f.stream e

/-- Hands a frame on: the answer, and the exchange as it is left. -/
def dispatch (f : Frame) (x : Exchange σ η) : Except FrameError Unit × Exchange σ η :=
  (dispatchSteps h f).run.run x

/-- A delivery reaches the handler that it is for. -/
def receive (x : Exchange σ η) : Delivery → Exchange σ η
  | .created stream => x.welcome h stream
  | .event stream e => x.tell h stream e

/-- Makes deliveries, and then keeps to what a router knows. -/
def follow (ds : List Delivery) (r : Router) (x : Exchange σ η) : Exchange σ η :=
  { ds.foldl (receive h) x with
    handlers := (ds.foldl (receive h) x).handlers.filter fun entry => entry.1 ∈ r.live
    highest := r.highest
    goAway := r.goAway }

/-- The connection has failed: every handler is told, and none is left. -/
def fail (x : Exchange σ η) : Exchange σ η := x.follow h x.router.fail.1 x.router.fail.2

variable {h} {x : Exchange σ η}

@[simp] theorem live_welcome (stream : StreamId) :
    (x.welcome h stream).live = x.live ++ [stream] := by
  simp [live, welcome]

@[simp] theorem highest_welcome (stream : StreamId) :
    (x.welcome h stream).highest = x.highest := rfl

@[simp] theorem goAway_welcome (stream : StreamId) : (x.welcome h stream).goAway = x.goAway := rfl

@[simp] theorem live_tell (stream : StreamId) (e : StreamEvent) :
    (x.tell h stream e).live = x.live := by
  unfold tell
  split
  · rfl
  · simp only [live, List.map_map]
    refine List.map_congr_left fun entry _ => ?_
    simp only [Function.comp_apply]
    split
    next heq => exact heq.symm
    next => rfl

@[simp] theorem highest_tell (stream : StreamId) (e : StreamEvent) :
    (x.tell h stream e).highest = x.highest := by
  unfold tell
  split <;> rfl

@[simp] theorem goAway_tell (stream : StreamId) (e : StreamEvent) :
    (x.tell h stream e).goAway = x.goAway := by
  unfold tell
  split <;> rfl

theorem filter_handlers_of_live {live : List StreamId} (hlive : x.live = live) :
    (x.handlers.filter fun entry => entry.1 ∈ live) = x.handlers := by
  subst hlive
  refine List.filter_eq_self.mpr fun entry hentry => ?_
  exact decide_eq_true (List.mem_map_of_mem hentry)

/-- After an event the handlers are those of the streams that the router keeps. -/
theorem filter_handlers_settle {r : Router} (hlive : x.live = r.live) (stream : StreamId)
    (e : StreamEvent) :
    (x.handlers.filter fun entry => entry.1 ∈ (r.settle stream e).live) =
      if e.isTerminal then x.handlers.filter fun entry => entry.1 ≠ stream else x.handlers := by
  unfold Router.settle
  split
  · refine List.filter_congr fun entry hentry => ?_
    have hmem : entry.1 ∈ r.live := hlive ▸ List.mem_map_of_mem hentry
    simp [hmem]
  · exact filter_handlers_of_live hlive

/-- Telling a stream what happened comes to a delivery, after which the router is settled. -/
theorem run_inform (stream : StreamId) (e : StreamEvent) :
    (inform h stream e).run.run x =
      (.ok (), x.follow h [.event stream e] (x.router.settle stream e)) := by
  have hsteps : (inform h stream e).run.run x =
      (.ok (), if e.isTerminal then (x.tell h stream e).forget stream else x.tell h stream e) := by
    cases he : e.isTerminal <;> simp [inform, he] <;> rfl
  have hkept := filter_handlers_settle (x := x.tell h stream e) (r := x.router)
    (live_tell stream e) stream e
  have hhighest : (x.router.settle stream e).highest = (x.tell h stream e).highest := by
    simp [router]
  have hgoAway : (x.router.settle stream e).goAway = (x.tell h stream e).goAway := by
    simp [router]
  rw [hsteps, follow, List.foldl_cons, List.foldl_nil, receive, hkept, hhighest, hgoAway]
  cases e.isTerminal <;> rfl

/-- Nothing is done to an exchange that is kept to its own router. -/
theorem follow_nil (x : Exchange σ η) : x.follow h [] x.router = x := by
  rw [follow, List.foldl_nil, filter_handlers_of_live (show x.live = x.router.live from rfl)]
  rfl

theorem foldl_receive_highest (ds : List Delivery) (highest : StreamId) (x : Exchange σ η) :
    ds.foldl (receive h) { x with highest } = { ds.foldl (receive h) x with highest } := by
  induction ds generalizing x with
  | nil => rfl
  | cons d ds ih =>
    have hfirst : receive h { x with highest } d = { receive h x d with highest } := by
      cases d with
      | created stream => rfl
      | event stream e =>
        simp only [receive, tell]
        split <;> rfl
    rw [List.foldl_cons, List.foldl_cons, hfirst, ih]

/-- The largest number that an exchange has seen has no bearing on deliveries. -/
theorem follow_highest (ds : List Delivery) (r : Router) (highest : StreamId) :
    follow h ds r { x with highest } = x.follow h ds r := by
  rw [follow, foldl_receive_highest]
  rfl

theorem live_foldl_receive (ds : List Delivery) (x : Exchange σ η) :
    (ds.foldl (receive h) x).live = x.live ++ DeliveryLog.created ds := by
  induction ds generalizing x with
  | nil => exact (List.append_nil x.live).symm
  | cons d ds ih =>
    rw [List.foldl_cons, ih]
    cases d with
    | created stream => simp [receive, DeliveryLog.created]
    | event stream e => simp [receive, DeliveryLog.created]

/-- Those streams are live afterwards that were live or are new, and that the router keeps. -/
theorem live_follow (ds : List Delivery) (r : Router) (x : Exchange σ η) :
    (x.follow h ds r).live = (x.live ++ DeliveryLog.created ds).filter (· ∈ r.live) := by
  rw [← live_foldl_receive (h := h), live, live, List.filter_map]
  rfl

/-- An exchange that makes the deliveries of its router knows what the router knows. -/
theorem router_follow {ds : List Delivery} {r : Router}
    (hlive : ∃ kept : StreamId → Bool, r.live = (x.live ++ DeliveryLog.created ds).filter kept) :
    (x.follow h ds r).router = r := by
  obtain ⟨kept, hlive⟩ := hlive
  have hfollowed : (x.follow h ds r).live = r.live := by
    rw [live_follow, hlive]
    refine List.filter_congr fun stream hmem => ?_
    rw [Bool.eq_iff_iff, decide_eq_true_iff, List.mem_filter]
    exact and_iff_right hmem
  rw [router, hfollowed]
  rfl

theorem router_fail (x : Exchange σ η) : (x.fail h).router = x.router.fail.2 :=
  router_follow ⟨fun _ => false, (List.filter_eq_nil_iff.mpr nofun).symm⟩

/-- Handing an event on comes to what the router says of it. -/
theorem run_handOn (stream : StreamId) (e : StreamEvent) :
    (handOn h stream e).run.run x =
      match x.router.route stream e with
      | .error cause => (.error cause, x)
      | .ok (ds, r) => (.ok (), x.follow h ds r) := by
  have hsteps : (handOn h stream e).run.run x =
      ExceptT.run (if stream ∈ x.live then inform h stream e
        else if stream ≤ x.highest then
          if e.isReset then pure () else throw (.streamClosed stream)
        else if x.goAway.isSome then throw (.streamAfterGoAway stream)
        else do
          modify fun x => { x with highest := stream }
          modify (welcome h stream)
          inform h stream e) x := rfl
  rw [hsteps, Router.route, show x.router.live = x.live from rfl,
    show x.router.highest = x.highest from rfl, show x.router.goAway = x.goAway from rfl]
  split
  · exact run_inform stream e
  · split
    · split
      · exact congrArg (Prod.mk _) (follow_nil x).symm
      · rfl
    · split
      · rfl
      · have hwelcomed : router (welcome h stream { x with highest := stream }) =
            { x.router with live := x.live ++ [stream], highest := stream } := by
          simp only [router, live_welcome, highest_welcome, goAway_welcome]
          rfl
        have hlast := run_inform (h := h) (x := welcome h stream { x with highest := stream })
          stream e
        rw [hwelcomed] at hlast
        have hsame : welcome h stream { x with highest := stream } =
            { x.welcome h stream with highest := stream } := rfl
        rw [hsame, follow_highest] at hlast
        exact hlast

/-- Handing a frame on comes to what the router says of it, and an error leaves the exchange as it
was. -/
theorem dispatch_eq (f : Frame) (x : Exchange σ η) :
    x.dispatch h f =
      match x.router.dispatch f with
      | .error cause => (.error cause, x)
      | .ok (ds, r) => (.ok (), x.follow h ds r) := by
  have hsteps : x.dispatch h f =
      match f.meaning with
      | .error cause => (.error cause, x)
      | .ok .nothing => (.ok (), x)
      | .ok (.goAway last) => (.ok (), { x with goAway := some last })
      | .ok (.event e) => (handOn h f.stream e).run.run x := by
    unfold dispatch dispatchSteps
    cases f.meaning with
    | error cause => rfl
    | ok meaning => cases meaning <;> rfl
  rw [hsteps, Router.dispatch]
  cases f.meaning with
  | error cause => rfl
  | ok meaning =>
    cases meaning with
    | nothing =>
      simp only [bind, Except.bind, pure, Except.pure]
      rw [follow_nil]
    | goAway last =>
      simp only [bind, Except.bind, pure, Except.pure]
      have hfollow := follow_nil (h := h) { x with goAway := some last }
      exact congrArg (Prod.mk _) hfollow.symm
    | event e => exact run_handOn f.stream e

/-! ### Traces -/

/-- What was called, the answer, and the exchange as it was left. -/
structure Entry (σ η : Type) where
  call : RouterCall
  answer : Except FrameError Unit
  left : Exchange σ η

def Entry.isAccepted (entry : Entry σ η) : Bool := entry.answer.isOk

variable (h) in
/-- One call: the answer, and the exchange as it is left. -/
def call (x : Exchange σ η) : RouterCall → Except FrameError Unit × Exchange σ η
  | .dispatch f => x.dispatch h f
  | .fail => (.ok (), x.fail h)

variable (h) in
/-- Any calls, in order. -/
def run (x : Exchange σ η) (calls : List RouterCall) : Exchange σ η :=
  calls.foldl (fun x c => (x.call h c).2) x

variable (h) in
/-- Any calls, in order, with their answers and what they leave. -/
def trace (x : Exchange σ η) : List RouterCall → List (Entry σ η)
  | [] => []
  | c :: calls => ⟨c, (x.call h c).1, (x.call h c).2⟩ :: trace (x.call h c).2 calls

theorem call_of_error {c : RouterCall} {e : FrameError} (he : (x.call h c).1 = .error e) :
    (x.call h c).2 = x := by
  cases c with
  | fail => cases he
  | dispatch f =>
    rw [call, dispatch_eq] at he ⊢
    cases hd : x.router.dispatch f with
    | error cause => rfl
    | ok answer =>
      rw [hd] at he
      cases he

/-- A trace from which refused calls are struck is the trace of the calls that are left. -/
theorem trace_of_sublist {calls : List RouterCall} {kept : List (Entry σ η)}
    (hkept : kept.Sublist (x.trace h calls))
    (haccepted : kept.filter Entry.isAccepted = (x.trace h calls).filter Entry.isAccepted) :
    x.trace h (kept.map Entry.call) = kept ∧ x.run h (kept.map Entry.call) = x.run h calls := by
  induction calls generalizing x kept with
  | nil =>
    obtain rfl := List.sublist_nil.mp hkept
    exact ⟨rfl, rfl⟩
  | cons c calls ih =>
    rw [trace] at hkept haccepted
    cases hkept with
    | cons _ hrest =>
      cases hanswer : (x.call h c).1 with
      | error e =>
        -- the call was refused, and the others find the exchange as it was
        have hsame := call_of_error hanswer
        rw [hsame] at hrest haccepted
        have hstruck : kept.filter Entry.isAccepted =
            (x.trace h calls).filter Entry.isAccepted := by
          rw [haccepted, List.filter_cons_of_neg (by simp [Entry.isAccepted, hanswer, Except.isOk,
            Except.toBool])]
        obtain ⟨htrace, hrun⟩ := ih hrest hstruck
        refine ⟨htrace, hrun.trans ?_⟩
        rw [run, run, List.foldl_cons, hsame]
      | ok =>
        -- an accepted call is not struck: one entry would be missing
        exfalso
        have hfewer := (hrest.filter Entry.isAccepted).length_le
        rw [haccepted, List.filter_cons_of_pos (by simp [Entry.isAccepted, hanswer, Except.isOk,
          Except.toBool]), List.length_cons] at hfewer
        omega
    | @cons_cons rest _ _ hrest =>
      have hothers : rest.filter Entry.isAccepted =
          ((x.call h c).2.trace h calls).filter Entry.isAccepted := by
        by_cases hfirst : Entry.isAccepted (⟨c, (x.call h c).1, (x.call h c).2⟩ : Entry σ η) = true
        · rw [List.filter_cons_of_pos hfirst, List.filter_cons_of_pos hfirst] at haccepted
          exact (List.cons.inj haccepted).2
        · rwa [List.filter_cons_of_neg hfirst, List.filter_cons_of_neg hfirst] at haccepted
      obtain ⟨htrace, hrun⟩ := ih hrest hothers
      exact ⟨congrArg (List.cons _) htrace, hrun⟩

end

/-- What an exchange makes of frames that it refuses. -/
structure Untraceable (h : Handling σ η) (x : Exchange σ η) : Prop where
  /-- Handing a frame on comes to what the router says of it. -/
  routed : ∀ f, x.dispatch h f =
    match x.router.dispatch f with
    | .error cause => (.error cause, x)
    | .ok (ds, r) => (.ok (), x.follow h ds r)
  /-- A frame that is refused leaves everything as it was: the shared state, the handlers, the
  largest number and the end of new streams. -/
  untouched : ∀ f e, (x.dispatch h f).1 = .error e → (x.dispatch h f).2 = x
  /-- When any refused calls are left out, the others are answered and do as before. -/
  struck : ∀ calls (kept : List (Entry σ η)), kept.Sublist (x.trace h calls) →
    kept.filter Entry.isAccepted = (x.trace h calls).filter Entry.isAccepted →
      x.trace h (kept.map Entry.call) = kept ∧ x.run h (kept.map Entry.call) = x.run h calls
  /-- Only three errors are left for a frame that has been decoded. -/
  causes : ∀ max buffer f rest e, Frame.decode max buffer = .frame f rest →
    (x.dispatch h f).1 = .error e →
      (∃ cause, e = .invalidHeaderBlock cause) ∨ e = .streamClosed f.stream ∨
        e = .streamAfterGoAway f.stream

/-- Frames that an exchange refuses leave no trace, whatever its handlers do. -/
theorem refusals_untraceable (h : Handling σ η) (x : Exchange σ η) : x.Untraceable h := by
  constructor
  · exact fun f => dispatch_eq f x
  · exact fun f e he => call_of_error (c := .dispatch f) he
  · exact fun calls kept hkept haccepted => trace_of_sublist hkept haccepted
  · intro max buffer f rest e hdecode he
    have hvalid := (Frame.decode_eq_frame_iff.mp hdecode).1
    rw [dispatch_eq] at he
    cases hd : x.router.dispatch f with
    | error cause =>
      rw [hd] at he
      obtain rfl := Except.error.inj he
      exact Router.error_of_isValid hvalid hd
    | ok answer =>
      rw [hd] at he
      cases he

/-- Handlers that write down what they are told. -/
def recording : Handling (List Delivery) StreamId where
  create stream log := (stream, log ++ [.created stream])
  tell e stream log := (stream, log ++ [.event stream e])

/-- Three frames that are refused, each for another reason, among others that are not. -/
def refused : List RouterCall :=
  [.dispatch (.ofData 1 [0x61] false), .dispatch (.ofData 3 [] true),
    .dispatch (.ofData 3 [0x62] false), .dispatch ⟨.opening, 0, 1, [1]⟩, .dispatch (.ofGoAway 3),
    .dispatch (.ofData 5 [] false), .dispatch (.ofReset 3 7), .dispatch (.ofData 1 [] true)]

theorem refused_untraceable :
    ((trace recording { shared := [] } refused).map Entry.answer =
        [.ok (), .ok (), .error (.streamClosed 3), .error (.invalidHeaderBlock (.truncated .count)),
          .ok (), .error (.streamAfterGoAway 5), .ok (), .ok ()]) ∧
      run recording { shared := [] }
          (((trace recording { shared := [] } refused).filter Entry.isAccepted).map Entry.call) =
        run recording { shared := [] } refused := by
  refine ⟨rfl, ?_⟩
  have hnone := refusals_untraceable recording { shared := [] }
  refine (hnone.struck refused _ List.filter_sublist ?_).2
  rw [List.filter_filter]
  simp only [Bool.and_self]

end Exchange
end RequestFeed
