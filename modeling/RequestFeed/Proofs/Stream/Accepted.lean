import Mathlib.Data.List.TakeWhile
import RequestFeed.Proofs.Stream.Dispatch
/-!
# Accepted frames and logs

What a router accepts, and what it delivers, as two lists that are kept apart. The first says what
the life of a stream is: it begins with the first frame for the stream, and it ends with the first
event after which nothing more happens. The second says what a stream has been told.

*Results.*
* `Router.dispatch_of_past`: frames for streams that have finished.
* `Occurrence.life_append`: a life goes on as long as no event has ended it.
-/

namespace RequestFeed

/-! ### Accepted frames -/

namespace Router

@[simp] theorem goAway_settle (stream : StreamId) (e : StreamEvent) (r : Router) :
    (r.settle stream e).goAway = r.goAway := by
  unfold settle
  split <;> rfl

/-- A frame for a stream that is not live and not to come is told to nobody. -/
theorem dispatch_of_past {f : Frame} {r : Router} (hkind : f.kind.isConnectionLevel = false)
    (hgone : f.stream ∉ r.live) (hpast : f.stream ≤ r.highest) :
    r.dispatch f = f.meaning.bind fun _ =>
      if f.kind = .reset then .ok ([], r) else .error (.streamClosed f.stream) := by
  have hroute (e : StreamEvent) : r.route f.stream e =
      if e.isReset then .ok ([], r) else .error (.streamClosed f.stream) := by
    rw [route, if_neg hgone, if_pos hpast]
  unfold dispatch Frame.meaning
  cases hk : f.kind with
  | opening => cases f.headerBlock with
    | error => rfl
    | ok headers => exact hroute (.opened headers f.isFin)
  | data => exact hroute (.data f.payload f.isFin)
  | reset => cases f.code with
    | error => rfl
    | ok code => exact hroute (.reset code)
  | ping => simp [hk, FrameKind.isConnectionLevel] at hkind
  | goAway => simp [hk, FrameKind.isConnectionLevel] at hkind

end Router

/-- What a router has accepted. -/
inductive Occurrence where
  /-- A frame for a stream. -/
  | frame (stream : StreamId) (event : StreamEvent)
  | goAway (last : StreamId)
  /-- The connection has failed. -/
  | failure
  deriving DecidableEq, Repr

namespace Occurrence

/-- What is accepted with a frame. -/
def ofFrame (f : Frame) : List Occurrence :=
  match f.meaning with
  | .ok (.event e) => [.frame f.stream e]
  | .ok (.goAway last) => [.goAway last]
  | _ => []

def isFor (stream : StreamId) : Occurrence → Bool
  | .frame other _ => other = stream
  | _ => false

/-- What an occurrence is to a live stream. -/
def heardBy (stream : StreamId) : Occurrence → Option StreamEvent
  | .frame other e => if other = stream then some e else none
  | .goAway _ => none
  | .failure => some .connectionFailed

theorem ofFrame_of_nothing {f : Frame} (h : f.meaning = .ok .nothing) : ofFrame f = [] := by
  rw [ofFrame, h]

theorem ofFrame_of_goAway {f : Frame} {last : StreamId} (h : f.meaning = .ok (.goAway last)) :
    ofFrame f = [goAway last] := by
  rw [ofFrame, h]

theorem ofFrame_of_event {f : Frame} {e : StreamEvent} (h : f.meaning = .ok (.event e)) :
    ofFrame f = [frame f.stream e] := by
  rw [ofFrame, h]

variable {stream : StreamId}

@[simp] theorem isFor_frame (other : StreamId) (e : StreamEvent) :
    (frame other e).isFor stream = decide (other = stream) := rfl

@[simp] theorem isFor_goAway (last : StreamId) : (goAway last).isFor stream = false := rfl

@[simp] theorem isFor_failure : failure.isFor stream = false := rfl

@[simp] theorem heardBy_frame (other : StreamId) (e : StreamEvent) :
    (frame other e).heardBy stream = if other = stream then some e else none := rfl

@[simp] theorem heardBy_goAway (last : StreamId) : (goAway last).heardBy stream = none := rfl

@[simp] theorem heardBy_failure : failure.heardBy stream = some .connectionFailed := rfl

end Occurrence

/-! ### Lives -/

/-- What happens through the first event after which nothing more happens. -/
def StreamEvent.throughTerminal : List StreamEvent → List StreamEvent
  | [] => []
  | e :: rest => if e.isTerminal then [e] else e :: throughTerminal rest

namespace StreamEvent

theorem any_throughTerminal (es : List StreamEvent) :
    (throughTerminal es).any isTerminal = es.any isTerminal := by
  induction es with
  | nil => rfl
  | cons e rest ih =>
    rw [throughTerminal]
    cases he : e.isTerminal <;> simp [he, ih]

theorem throughTerminal_append (es : List StreamEvent) (e : StreamEvent) :
    throughTerminal (es ++ [e]) =
      if es.any isTerminal then throughTerminal es else throughTerminal es ++ [e] := by
  induction es with
  | nil => simp [throughTerminal]
  | cons first rest ih =>
    rw [List.cons_append, throughTerminal, throughTerminal]
    cases hfirst : first.isTerminal with
    | true => simp [hfirst]
    | false =>
      simp only [Bool.false_eq_true, if_false, ih, List.any_cons, hfirst, Bool.false_or]
      split <;> rfl

end StreamEvent

open StreamEvent (throughTerminal)

namespace Occurrence

/-- All that happened to a stream from the first frame for it on. -/
def since (stream : StreamId) (accepted : List Occurrence) : List StreamEvent :=
  (accepted.dropWhile fun o => !o.isFor stream).filterMap (heardBy stream)

/-- The life of a stream. -/
def life (stream : StreamId) (accepted : List Occurrence) : List StreamEvent :=
  throughTerminal (since stream accepted)

variable {stream : StreamId} {accepted : List Occurrence}

theorem dropWhile_eq_nil_iff :
    (accepted.dropWhile fun o => !o.isFor stream) = [] ↔
      ∀ o ∈ accepted, o.isFor stream = false := by
  rw [List.dropWhile_eq_nil_iff]
  simp only [Bool.not_eq_true']

theorem since_of_unseen (h : ∀ o ∈ accepted, o.isFor stream = false) :
    since stream accepted = [] := by
  rw [since, dropWhile_eq_nil_iff.mpr h]
  rfl

/-- A stream hears of a failure after it has been seen, and of a frame for it in any case. -/
theorem since_append (o : Occurrence)
    (h : o = .failure → ∃ before ∈ accepted, before.isFor stream = true) :
    since stream (accepted ++ [o]) = since stream accepted ++ (o.heardBy stream).toList := by
  rw [since, since, List.dropWhile_append]
  split
  next hnil =>
    rw [List.isEmpty_iff] at hnil
    rw [hnil]
    cases o with
    | frame other e => by_cases heq : other = stream <;> simp [heq]
    | goAway last => simp
    | failure =>
      obtain ⟨before, hmem, hfor⟩ := h rfl
      rw [dropWhile_eq_nil_iff.mp hnil before hmem] at hfor
      cases hfor
  next =>
    rw [List.filterMap_append, List.filterMap_cons, List.filterMap_nil]
    cases o.heardBy stream <;> rfl

/-- A life goes on as long as no event has ended it. -/
theorem life_append (o : Occurrence)
    (h : o = .failure → ∃ before ∈ accepted, before.isFor stream = true) :
    life stream (accepted ++ [o]) =
      if (life stream accepted).any StreamEvent.isTerminal then life stream accepted
      else life stream accepted ++ (o.heardBy stream).toList := by
  rw [life, life, since_append o h, StreamEvent.any_throughTerminal]
  cases o.heardBy stream with
  | none => simp
  | some e => exact StreamEvent.throughTerminal_append _ e

end Occurrence

/-! ### Deliveries -/

/-- All that a router has delivered, in order. -/
abbrev DeliveryLog := List Delivery

namespace DeliveryLog

/-- The streams that have been created, in order. -/
def created (log : DeliveryLog) : List StreamId :=
  log.filterMap fun
    | .created stream => some stream
    | .event _ _ => none

/-- The number of the stream that was created last, or zero. -/
def last (log : DeliveryLog) : StreamId := log.created.getLast?.getD 0

/-- What a stream has been told. -/
def told (log : DeliveryLog) (stream : StreamId) : List StreamEvent :=
  log.filterMap fun
    | .created _ => none
    | .event other e => if other = stream then some e else none

/-- A stream has not been told anything after which nothing more happens. -/
def isUnfinished (log : DeliveryLog) (stream : StreamId) : Bool :=
  !(log.told stream).any StreamEvent.isTerminal

/-- A stream that is created is told something at once. -/
def Prompt (log : DeliveryLog) : Prop :=
  ∀ before stream after, log = before ++ .created stream :: after →
    ∃ e rest, after = .event stream e :: rest

variable {log more : DeliveryLog}

theorem created_append : created (log ++ more) = created log ++ created more :=
  List.filterMap_append

theorem told_append (stream : StreamId) :
    told (log ++ more) stream = told log stream ++ told more stream := List.filterMap_append

theorem isUnfinished_append (stream : StreamId) :
    isUnfinished (log ++ more) stream = (isUnfinished log stream && isUnfinished more stream) := by
  rw [isUnfinished, isUnfinished, isUnfinished, told_append, List.any_append, Bool.not_or]

@[simp] theorem created_event (stream : StreamId) (e : StreamEvent) :
    created [.event stream e] = [] := rfl

@[simp] theorem told_created (stream other : StreamId) : told [.created other] stream = [] := rfl

@[simp] theorem told_event (stream other : StreamId) (e : StreamEvent) :
    told [.event other e] stream = if other = stream then [e] else [] := by
  by_cases h : other = stream <;> simp [told, h]

theorem isUnfinished_event (stream other : StreamId) (e : StreamEvent) :
    isUnfinished [.event other e] stream = !(decide (other = stream) && e.isTerminal) := by
  by_cases h : other = stream <;> simp [isUnfinished, h]

/-- Different streams are told the same. -/
theorem told_map_event {live : List StreamId} (h : live.Nodup) (stream : StreamId)
    (e : StreamEvent) :
    told (live.map fun other => .event other e) stream = if stream ∈ live then [e] else [] := by
  induction live with
  | nil => rfl
  | cons first rest ih =>
    obtain ⟨hfirst, hrest⟩ := List.nodup_cons.mp h
    rw [List.map_cons, ← List.singleton_append, told_append, ih hrest, told_event]
    by_cases heq : first = stream
    · subst heq
      simp [hfirst]
    · have hne : ¬ stream = first := fun h => heq h.symm
      simp [heq, hne]

theorem created_map_event (live : List StreamId) (e : StreamEvent) :
    created (live.map fun stream => .event stream e) = [] := by
  simp [created]

theorem prompt_nil : Prompt [] := by
  intro before stream after h
  simp at h

theorem Prompt.append (h : log.Prompt) (hmore : Prompt more) : Prompt (log ++ more) := by
  intro before stream after heq
  rcases List.append_eq_append_iff.mp heq with ⟨mid, -, hmid⟩ | ⟨mid, hlog, hmid⟩
  · exact hmore mid stream after hmid
  · cases mid with
    | nil => exact hmore [] stream after hmid.symm
    | cons first mid =>
      rw [List.cons_append, List.cons.injEq] at hmid
      obtain ⟨rfl, rfl⟩ := hmid
      obtain ⟨e, rest, rfl⟩ := h before stream mid hlog
      exact ⟨e, rest ++ more, rfl⟩

/-- Deliveries that create nothing. -/
theorem prompt_of_created_eq_nil (h : created log = []) : Prompt log := by
  intro before stream after heq
  rw [heq, created_append] at h
  simp [created] at h

theorem prompt_create (stream : StreamId) (e : StreamEvent) :
    Prompt [.created stream, .event stream e] := by
  intro before other after heq
  cases before with
  | nil =>
    rw [List.nil_append, List.cons.injEq, Delivery.created.injEq] at heq
    obtain ⟨rfl, rfl⟩ := heq
    exact ⟨e, [], rfl⟩
  | cons first before => simp [List.singleton_eq_append_iff] at heq

end DeliveryLog

end RequestFeed
