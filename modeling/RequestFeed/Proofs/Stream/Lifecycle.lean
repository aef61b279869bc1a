import RequestFeed.Proofs.Stream.Accepted
/-!
# The lives of streams

A router forgets the streams that have finished. What it has delivered in all is compared here with
what it has accepted: the frames that were dispatched without error, and the failures of the
connection, in the order in which they came.

Frames are any frames here, those too that no decoder would let through, and a router may be used on
after an error or a failure.

*Invariant.* `RouterRun.Traced`: the largest number tells the streams that have been created from
those that are yet to come, and the live streams are those that have been created and not finished.

*Results.*
* `RouterRun.Traced.create` and `RouterRun.Traced.hear`: a stream is created, and something is
  accepted that the live streams hear of.
* `RouterRun.Sound.step`: what is called keeps the invariant.
* `RouterRun.lifecycle`: streams are created once and in order, and every stream is told its life.
-/

namespace RequestFeed

open DeliveryLog (created told isUnfinished Prompt)

/-! ### Runs -/

/-- What can be done with a router. -/
inductive RouterCall where
  | dispatch (f : Frame)
  | fail
  deriving DecidableEq, Repr

/-- A router with all that it has delivered and accepted. -/
structure RouterRun where
  router : Router := {}
  log : DeliveryLog := []
  accepted : List Occurrence := []
  deriving DecidableEq, Repr

namespace RouterRun

def step (h : RouterRun) : RouterCall → RouterRun
  | .dispatch f =>
    match h.router.dispatch f with
    | .error _ => h
    | .ok (ds, r) =>
      { router := r, log := h.log ++ ds, accepted := h.accepted ++ Occurrence.ofFrame f }
  | .fail =>
    { router := h.router.fail.2, log := h.log ++ h.router.fail.1,
      accepted := h.accepted ++ [.failure] }

/-- Any calls, in order. -/
def run (h : RouterRun) (calls : List RouterCall) : RouterRun := calls.foldl step h

/-- What a router knows, and what it has delivered, follow from what it has accepted. -/
structure Traced (h : RouterRun) : Prop where
  increasing : (created h.log).Pairwise (· < ·)
  nonzero : 0 ∉ created h.log
  bounded : ∀ stream ∈ created h.log, stream ≤ h.router.highest
  highest : h.router.highest = h.log.last
  live : h.router.live = (created h.log).filter h.log.isUnfinished
  told : ∀ stream, h.log.told stream =
    if stream ∈ created h.log then Occurrence.life stream h.accepted else []
  /-- A stream that is yet to come has not been seen. -/
  unseen : ∀ stream, h.router.highest < stream → ∀ o ∈ h.accepted, o.isFor stream = false

/-- A stream that has been created has been seen. -/
def Seen (h : RouterRun) : Prop :=
  ∀ stream ∈ created h.log, ∃ o ∈ h.accepted, o.isFor stream = true

/-- The end of new streams is remembered when it has been accepted. -/
def Closing (h : RouterRun) : Prop :=
  h.router.goAway.isSome ↔ ∃ last, .goAway last ∈ h.accepted

variable {h : RouterRun}

theorem traced_new : Traced {} where
  increasing := List.Pairwise.nil
  nonzero := List.not_mem_nil
  bounded stream hmem := by cases hmem
  highest := rfl
  live := rfl
  told _ := rfl
  unseen := by simp

theorem Traced.mem_live_iff (t : h.Traced) (stream : StreamId) :
    stream ∈ h.router.live ↔ stream ∈ created h.log ∧ h.log.isUnfinished stream := by
  rw [t.live, List.mem_filter]

/-- The first delivery to a stream with a larger number than all before. -/
theorem Traced.create (t : h.Traced) {stream : StreamId} (hlater : ¬ stream ≤ h.router.highest) :
    Traced
      { router := { h.router with live := h.router.live ++ [stream], highest := stream }
        log := h.log ++ [.created stream]
        accepted := h.accepted } := by
  have hlt : h.router.highest < stream := UInt32.not_le.mp hlater
  have hbelow : ∀ other ∈ created h.log, other < stream := fun other hmem =>
    UInt32.lt_of_le_of_lt (t.bounded other hmem) hlt
  have hnew : stream ∉ created h.log := fun hmem => UInt32.lt_irrefl _ (hbelow stream hmem)
  have hsilent : h.log.told stream = [] := by rw [t.told, if_neg hnew]
  have hcreated : created (h.log ++ [.created stream]) = created h.log ++ [stream] :=
    DeliveryLog.created_append
  have htold (other : StreamId) :
      DeliveryLog.told (h.log ++ [.created stream]) other = h.log.told other := by
    rw [DeliveryLog.told_append, DeliveryLog.told_created, List.append_nil]
  have hunfinished :
      DeliveryLog.isUnfinished (h.log ++ [.created stream]) = h.log.isUnfinished := by
    funext other
    rw [isUnfinished, htold]
    rfl
  constructor
  · rw [hcreated, List.pairwise_append]
    refine ⟨t.increasing, List.pairwise_singleton _ _, ?_⟩
    intro other hmem last hlast
    rw [List.mem_singleton.mp hlast]
    exact hbelow other hmem
  · rw [hcreated, List.mem_append, List.mem_singleton]
    rintro (hmem | rfl)
    · exact t.nonzero hmem
    · exact UInt32.not_lt_zero hlt
  · rw [hcreated]
    intro other hmem
    rcases List.mem_append.mp hmem with hold | hlast
    · exact UInt32.le_of_lt (hbelow other hold)
    · rw [List.mem_singleton.mp hlast]
      exact UInt32.le_refl stream
  · rw [DeliveryLog.last, hcreated]
    simp
  · have hself : h.log.isUnfinished stream = true := by rw [isUnfinished, hsilent]; rfl
    rw [hcreated, hunfinished, List.filter_append, t.live]
    simp [hself]
  · intro other
    rw [htold, hcreated, t.told]
    by_cases heq : other = stream
    · subst heq
      have hlife : Occurrence.life other h.accepted = [] := by
        rw [Occurrence.life, Occurrence.since_of_unseen (t.unseen other hlt)]
        rfl
      simp [hlife]
    · simp [heq]
  · intro other hother
    exact t.unseen other (UInt32.lt_trans hlt hother)

/-- Something is accepted, and the live streams are told what it is to them. -/
theorem Traced.hear (t : h.Traced) {o : Occurrence} {ds : DeliveryLog} {r : Router}
    (hcreated : ds.created = []) (hhighest : r.highest = h.router.highest)
    (hlive : r.live = h.router.live.filter ds.isUnfinished)
    (htold : ∀ stream, ds.told stream =
      if stream ∈ h.router.live then (o.heardBy stream).toList else [])
    (hpast : ∀ stream, o.isFor stream = true → stream ≤ h.router.highest)
    (hseen : o = .failure → h.Seen) :
    Traced { router := r, log := h.log ++ ds, accepted := h.accepted ++ [o] } := by
  have hsame : created (h.log ++ ds) = created h.log := by
    rw [DeliveryLog.created_append, hcreated, List.append_nil]
  constructor
  · rw [hsame]
    exact t.increasing
  · rw [hsame]
    exact t.nonzero
  · rw [hsame, hhighest]
    exact t.bounded
  · rw [hhighest, DeliveryLog.last, hsame]
    exact t.highest
  · rw [hlive, hsame, t.live, List.filter_filter]
    apply List.filter_congr
    intro stream _
    rw [DeliveryLog.isUnfinished_append, Bool.and_comm]
  · intro stream
    rw [hsame, DeliveryLog.told_append, htold, t.told]
    by_cases hmem : stream ∈ created h.log
    · have hlife : h.log.isUnfinished stream =
          !(Occurrence.life stream h.accepted).any StreamEvent.isTerminal := by
        rw [isUnfinished, t.told, if_pos hmem]
      rw [if_pos hmem, if_pos hmem, Occurrence.life_append o fun ho => hseen ho stream hmem]
      -- Exactly the streams whose lives have not ended are live.
      cases hended : (Occurrence.life stream h.accepted).any StreamEvent.isTerminal with
      | true =>
        have hgone : stream ∉ h.router.live := fun hin => by
          simpa [hlife, hended] using ((t.mem_live_iff stream).mp hin).2
        rw [if_neg hgone, if_pos rfl, List.append_nil]
      | false =>
        have hin : stream ∈ h.router.live :=
          (t.mem_live_iff stream).mpr ⟨hmem, by rw [hlife, hended]; rfl⟩
        rw [if_pos hin, if_neg Bool.false_ne_true]
    · have hgone : stream ∉ h.router.live := fun hin => hmem ((t.mem_live_iff stream).mp hin).1
      rw [if_neg hmem, if_neg hmem, if_neg hgone]
      rfl
  · intro stream hlater before hbefore
    rw [hhighest] at hlater
    rcases List.mem_append.mp hbefore with hold | hlast
    · exact t.unseen stream hlater before hold
    · rw [List.mem_singleton.mp hlast, Bool.eq_false_iff]
      intro hfor
      exact UInt32.lt_irrefl _ (UInt32.lt_of_lt_of_le hlater (hpast stream hfor))

/-- A live stream is told something. -/
theorem Traced.tell (t : h.Traced) {stream : StreamId} (hlive : stream ∈ h.router.live)
    (e : StreamEvent) :
    Traced
      { router := h.router.settle stream e
        log := h.log ++ [.event stream e]
        accepted := h.accepted ++ [.frame stream e] } := by
  apply t.hear
  · rfl
  · exact Router.highest_settle stream e h.router
  · unfold Router.settle
    cases hterminal : e.isTerminal with
    | true =>
      rw [if_pos rfl]
      apply List.filter_congr
      intro other _
      rw [DeliveryLog.isUnfinished_event, hterminal, Bool.and_true, decide_not]
      simp only [eq_comm]
    | false =>
      have hall : ∀ other ∈ h.router.live, isUnfinished [.event stream e] other = true := by
        intro other _
        rw [DeliveryLog.isUnfinished_event, hterminal, Bool.and_false]
        rfl
      rw [List.filter_eq_self.mpr hall]
      rfl
  · intro other
    rw [DeliveryLog.told_event, Occurrence.heardBy_frame]
    by_cases heq : stream = other
    · subst heq
      simp [hlive]
    · simp [heq]
  · intro other hfor
    rw [← of_decide_eq_true hfor]
    exact t.bounded stream ((t.mem_live_iff stream).mp hlive).1
  · rintro ⟨⟩

/-- What no live stream hears changes nothing. -/
theorem Traced.ignore (t : h.Traced) {o : Occurrence} {r : Router}
    (hhighest : r.highest = h.router.highest) (hlive : r.live = h.router.live)
    (hunheard : ∀ stream ∈ h.router.live, o.heardBy stream = none)
    (hpast : ∀ stream, o.isFor stream = true → stream ≤ h.router.highest) (hne : o ≠ .failure) :
    Traced { router := r, log := h.log ++ [], accepted := h.accepted ++ [o] } := by
  apply t.hear rfl hhighest
  · have hall : ∀ stream ∈ h.router.live, isUnfinished [] stream = true := fun _ _ => rfl
    rw [hlive, List.filter_eq_self.mpr hall]
  · intro stream
    split
    next hin =>
      rw [hunheard stream hin]
      rfl
    next => rfl
  · exact hpast
  · exact fun ho => absurd ho hne

theorem Traced.nodup_live (t : h.Traced) : h.router.live.Nodup := by
  rw [t.live]
  exact (t.increasing.imp UInt32.ne_of_lt).filter _

/-- Every live stream is told that the connection has failed. -/
theorem Traced.fail (t : h.Traced) (hseen : h.Seen) : (h.step .fail).Traced := by
  have htold (stream : StreamId) := DeliveryLog.told_map_event t.nodup_live stream .connectionFailed
  apply t.hear
  · exact DeliveryLog.created_map_event _ _
  · rfl
  · refine (List.filter_eq_nil_iff.mpr ?_).symm
    intro stream hin
    simp [Router.fail, isUnfinished, htold stream, hin, StreamEvent.isTerminal]
  · exact htold
  · rintro stream ⟨⟩
  · exact fun _ => hseen

/-- A frame is accepted. -/
theorem Traced.accept (t : h.Traced) {f : Frame} {ds : DeliveryLog} {r : Router}
    (haccepts : h.router.Accepts f ds r) :
    Traced
      { router := r, log := h.log ++ ds, accepted := h.accepted ++ Occurrence.ofFrame f } := by
  cases haccepts with
  | nothing meaning =>
    rw [Occurrence.ofFrame_of_nothing meaning, List.append_nil, List.append_nil]
    exact t
  | goAway meaning =>
    rw [Occurrence.ofFrame_of_goAway meaning]
    refine t.ignore ?_ ?_ ?_ ?_ ?_
    · rfl
    · rfl
    · exact fun _ _ => rfl
    · rintro stream ⟨⟩
    · rintro ⟨⟩
  | @known e meaning live =>
    rw [Occurrence.ofFrame_of_event meaning]
    exact t.tell live e
  | late meaning gone past =>
    rw [Occurrence.ofFrame_of_event meaning]
    refine t.ignore rfl rfl ?_ ?_ ?_
    · intro stream hin
      have hne : f.stream ≠ stream := fun heq => gone (heq ▸ hin)
      rw [Occurrence.heardBy_frame, if_neg hne]
    · intro stream hfor
      rw [← of_decide_eq_true hfor]
      exact past
    · rintro ⟨⟩
  | @fresh e meaning later staying =>
    have hlast : f.stream ∈ h.router.live ++ [f.stream] :=
      List.mem_append_right _ List.mem_cons_self
    have htold := (t.create later).tell hlast e
    rw [List.append_assoc] at htold
    rw [Occurrence.ofFrame_of_event meaning]
    exact htold

theorem Seen.accept (hseen : h.Seen) {f : Frame} {ds : DeliveryLog} {r : Router}
    (haccepts : h.router.Accepts f ds r) :
    Seen { router := r, log := h.log ++ ds, accepted := h.accepted ++ Occurrence.ofFrame f } := by
  intro stream hmem
  rw [DeliveryLog.created_append] at hmem
  rcases List.mem_append.mp hmem with hold | hnew
  · obtain ⟨o, ho, hfor⟩ := hseen stream hold
    exact ⟨o, List.mem_append_left _ ho, hfor⟩
  · cases haccepts with
    | @fresh e meaning =>
      have heq : stream = f.stream := List.mem_singleton.mp hnew
      refine ⟨.frame f.stream e, List.mem_append_right _ ?_, by simp [heq]⟩
      rw [Occurrence.ofFrame_of_event meaning]
      exact List.mem_cons_self
    | _ => cases hnew

theorem Closing.accept (hclosing : h.Closing) {f : Frame} {ds : DeliveryLog} {r : Router}
    (haccepts : h.router.Accepts f ds r) :
    Closing
      { router := r, log := h.log ++ ds, accepted := h.accepted ++ Occurrence.ofFrame f } := by
  unfold Closing at hclosing ⊢
  cases haccepts with
  | nothing meaning => simp [Occurrence.ofFrame_of_nothing meaning, hclosing]
  | goAway meaning => simp [Occurrence.ofFrame_of_goAway meaning]
  | known meaning => simp [Occurrence.ofFrame_of_event meaning, hclosing]
  | late meaning => simp [Occurrence.ofFrame_of_event meaning, hclosing]
  | fresh meaning => simp [Occurrence.ofFrame_of_event meaning, hclosing]

theorem prompt_accept (hprompt : h.log.Prompt) {f : Frame} {ds : DeliveryLog} {r : Router}
    (haccepts : h.router.Accepts f ds r) : Prompt (h.log ++ ds) := by
  apply hprompt.append
  cases haccepts with
  | nothing | goAway | late => exact DeliveryLog.prompt_nil
  | known => exact DeliveryLog.prompt_of_created_eq_nil rfl
  | fresh => exact DeliveryLog.prompt_create _ _

theorem created_step_fail (h : RouterRun) : created (h.step .fail).log = created h.log := by
  have hnone := DeliveryLog.created_map_event h.router.live .connectionFailed
  rw [step, DeliveryLog.created_append, Router.fail, hnone, List.append_nil]

/-- All that holds of a router at any time. -/
structure Sound (h : RouterRun) : Prop where
  traced : h.Traced
  seen : h.Seen
  closing : h.Closing
  prompt : h.log.Prompt

theorem sound_new : Sound {} where
  traced := traced_new
  seen stream hmem := by cases hmem
  closing := by simp [Closing]
  prompt := DeliveryLog.prompt_nil

theorem Sound.step (s : h.Sound) (c : RouterCall) : (h.step c).Sound := by
  cases c with
  | dispatch f =>
    rw [RouterRun.step]
    split
    next => exact s
    next ds r hdispatch =>
      have haccepts := Router.accepts_of_dispatch hdispatch
      exact ⟨s.traced.accept haccepts, s.seen.accept haccepts, s.closing.accept haccepts,
        prompt_accept s.prompt haccepts⟩
  | fail =>
    constructor
    · exact s.traced.fail s.seen
    · intro stream hmem
      rw [created_step_fail] at hmem
      obtain ⟨o, ho, hfor⟩ := s.seen stream hmem
      exact ⟨o, List.mem_append_left _ ho, hfor⟩
    · simpa [Closing, RouterRun.step, Router.fail] using s.closing
    · exact s.prompt.append
        (DeliveryLog.prompt_of_created_eq_nil (DeliveryLog.created_map_event _ _))

theorem Sound.run (s : h.Sound) (calls : List RouterCall) : (h.run calls).Sound := by
  induction calls generalizing h with
  | nil => exact s
  | cons c rest ih => exact ih (s.step c)

/-! ### Lifecycles -/

/-- After the end of new streams no stream is created, and the end is not taken back. -/
theorem created_step_of_goAway (c : RouterCall) (hgone : h.router.goAway.isSome) :
    created (h.step c).log = created h.log ∧ (h.step c).router.goAway.isSome := by
  cases c with
  | dispatch f =>
    rw [step]
    split
    next => exact ⟨rfl, hgone⟩
    next ds r hdispatch =>
      rw [DeliveryLog.created_append]
      cases Router.accepts_of_dispatch hdispatch with
      | nothing => exact ⟨List.append_nil _, hgone⟩
      | goAway => exact ⟨List.append_nil _, rfl⟩
      | late => exact ⟨List.append_nil _, hgone⟩
      | known => exact ⟨List.append_nil _, by simpa using hgone⟩
      | fresh meaning later staying =>
        rw [staying] at hgone
        cases hgone
  | fail => exact ⟨created_step_fail h, hgone⟩

theorem created_run_of_goAway (calls : List RouterCall) (hgone : h.router.goAway.isSome) :
    created (h.run calls).log = created h.log := by
  induction calls generalizing h with
  | nil => rfl
  | cons c rest ih =>
    obtain ⟨hcreated, hstill⟩ := created_step_of_goAway c hgone
    exact (ih hstill).trans hcreated

/-- Stream numbers in their order. -/
def inOrder (ids : List StreamId) : List StreamId := ids.mergeSort fun a b => decide (a ≤ b)

/-- Numbers that increase are the order of the same numbers in any other. -/
theorem inOrder_of_perm {ids live : List StreamId} (hperm : ids.Perm live)
    (hlive : live.Pairwise (· < ·)) : inOrder ids = live := by
  have hsorted : (inOrder ids).Pairwise (· ≤ ·) := by
    have htrans (a b c : StreamId) (hab : decide (a ≤ b) = true) (hbc : decide (b ≤ c) = true) :
        decide (a ≤ c) = true :=
      decide_eq_true (UInt32.le_trans (of_decide_eq_true hab) (of_decide_eq_true hbc))
    have htotal (a b : StreamId) : (decide (a ≤ b) || decide (b ≤ a)) = true := by
      simpa using UInt32.le_total a b
    exact (List.pairwise_mergeSort htrans htotal ids).imp of_decide_eq_true
  have hsame : (inOrder ids).Perm live := (List.mergeSort_perm _ _).trans hperm
  exact hsame.eq_of_pairwise (fun _ _ _ _ => UInt32.le_antisymm) hsorted
    (hlive.imp UInt32.le_of_lt)

/-- What the calls on a router have come to. -/
structure Lifecycle (h : RouterRun) : Prop where
  /-- No stream is created twice, and each has a larger number than all before. -/
  increasing : (created h.log).Pairwise (· < ·)
  /-- The connection itself is never created. -/
  nonzero : StreamId.connection ∉ created h.log
  /-- After the end of new streams has been accepted none is created, whatever is called. -/
  closed : (∃ last, .goAway last ∈ h.accepted) →
    ∀ calls, created (h.run calls).log = created h.log
  /-- A stream is told its first event when it is created. -/
  prompt : h.log.Prompt
  /-- A stream that has been created is told its life, and nobody else is told anything. -/
  told : ∀ stream, h.log.told stream =
    if stream ∈ created h.log then Occurrence.life stream h.accepted else []
  /-- The live streams are those that have been created and have not been told their last event. -/
  live : h.router.live = (created h.log).filter h.log.isUnfinished
  /-- A failure is told once to every live stream, in the order of the numbers, in whatever order
  the live streams are found. -/
  failing : ∀ ids : List StreamId, ids.Perm h.router.live →
    h.step .fail =
      { router := { h.router with live := [] }
        log := h.log ++ (inOrder ids).map fun stream => .event stream .connectionFailed
        accepted := h.accepted ++ [.failure] }
  /-- A frame for a stream that is not live and not above all that have been created reaches no
  stream: with a payload as it should be, a reset is ignored, and all else is an error. -/
  late : ∀ f : Frame, f.kind.isConnectionLevel = false → f.stream ∉ h.router.live →
    f.stream ≤ h.log.last →
    h.router.dispatch f = f.meaning.bind fun _ =>
      if f.kind = .reset then .ok ([], h.router) else .error (.streamClosed f.stream)

/-- Streams are created once and in order, and every stream is told its life. -/
theorem lifecycle (calls : List RouterCall) : (run {} calls).Lifecycle := by
  have s : (run {} calls).Sound := sound_new.run calls
  generalize run {} calls = h at s
  have hlive : h.router.live.Pairwise (· < ·) := by
    rw [s.traced.live]
    exact s.traced.increasing.filter _
  constructor
  · exact s.traced.increasing
  · exact s.traced.nonzero
  · intro haccepted later
    exact created_run_of_goAway later (s.closing.mpr haccepted)
  · exact s.prompt
  · exact s.traced.told
  · exact s.traced.live
  · intro ids hperm
    rw [inOrder_of_perm hperm hlive]
    rfl
  · intro f hkind hgone hpast
    rw [← s.traced.highest] at hpast
    exact Router.dispatch_of_past hkind hgone hpast

/-- Two streams, one of which fails; what comes after the end of new streams, and after theirs. -/
def failing : List RouterCall :=
  [.dispatch (.ofData 1 [0x61] false), .dispatch (.ofData 3 [] true), .dispatch (.ofGoAway 3),
    .dispatch (.ofData 5 [] false), .dispatch (.ofReset 3 7), .fail,
    .dispatch (.ofData 1 [0x62] true)]

theorem failing_lifecycle :
    (run {} failing).log =
        [.created 1, .event 1 (.data [0x61] false), .created 3, .event 3 (.data [] true),
          .event 1 .connectionFailed] ∧
      ∀ calls, created (run (run {} failing) calls).log = [1, 3] := by
  refine ⟨by decide, ?_⟩
  intro calls
  rw [(lifecycle failing).closed ⟨3, by decide⟩ calls]
  decide

end RouterRun
end RequestFeed
