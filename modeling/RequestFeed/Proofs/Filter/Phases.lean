import RequestFeed.Proofs.Filter.Ending
/-!
# Phases of filters

The phases of a filter make a small state machine. A filter waits until it knows the protocol of
its connection. From then on it passes the connection through for good, or it is active until the
input ends, becomes unusable, or the connection is gone. The mark that no more will follow goes
with the last of these: it is all that a read tells an aborted filter's consumer, and no other read
tells it.

*Results.*
* `Filter.Handles.leads`: which phases one read can lead to.
* `Filter.Handles.marked`: a mark is told exactly by reads that leave the filter aborted, and never
  beside bytes.
* `Session.keeps_phases`: the rules of the state machine for one read, and what lasts whatever
  happens afterwards.
-/

namespace RequestFeed

theorem Brigade.eos_not_mem_ofBytes (bs : Bytes) : Bucket.eos ∉ Brigade.ofBytes bs := by
  cases bs <;> simp [ofBytes]

/-- The phases that a read can lead to, once it is known which protocol was selected. -/
inductive FilterPhase.Leads : FilterPhase → FilterPhase → Prop where
  | stays (p : FilterPhase) : Leads p p
  /-- The input turned out to be unusable. -/
  | breaks : Leads .active (.aborted .general)
  | ends : Leads .active .exhausted
  /-- The connection is gone. -/
  | parts {p : FilterPhase} : p = .active ∨ p = .exhausted → Leads p (.aborted .connAborted)

/-- Only active and exhausted filters come to other phases. -/
theorem FilterPhase.Leads.eq {p q : FilterPhase} (h : Leads p q) (ha : p ≠ .active)
    (he : p ≠ .exhausted) : q = p := by
  cases h with
  | stays => rfl
  | breaks | ends => exact absurd rfl ha
  | parts hp => exact absurd hp (not_or_intro ha he)

/-- A reply marks the end of the output exactly when it leaves an aborted filter behind, and then
it says nothing else and gives the cause. -/
structure Reply.Marks (reply : Reply) (after : FilterPhase) : Prop where
  eos_mem_iff : Bucket.eos ∈ reply.output ↔ ∃ cause, after = .aborted cause
  alone : ∀ cause, after = .aborted cause →
    reply.output = [.eos] ∧ reply.status = .failed cause

theorem Reply.marks_abortReply (cause : ReadError) :
    (Filter.abortReply cause).Marks (.aborted cause) := by
  constructor
  · simp [Filter.abortReply]
  · rintro _ ⟨⟩
    exact ⟨rfl, rfl⟩

/-- A reply without a mark leaves no aborted filter behind. -/
theorem Reply.marks_of_not_aborted {reply : Reply} {after : FilterPhase}
    (h : Bucket.eos ∉ reply.output) (hp : ∀ cause, after ≠ .aborted cause) :
    reply.Marks after := by
  constructor
  · simp [h, hp]
  · intro cause he
    exact absurd he (hp cause)

namespace Filter

section

variable {σ : Type} {r : ReadRequest} {f f' : Filter} {s s' : σ} {reply : Reply} {bs : Bytes}

theorem Settles.eos_not_mem (h : Settles f bs reply f') : Bucket.eos ∉ reply.output := by
  cases h with
  | waiting => simp [Reply.failed]
  | buffered | well | told | ended => exact Brigade.eos_not_mem_ofBytes bs

theorem Settles.phase_ne_aborted (h : Settles f bs reply f') (hp : f.phase = .active)
    (cause : ReadError) : f'.phase ≠ .aborted cause := by
  cases h <;> simp [hp]

theorem Answers.marked (h : Answers r f reply f') (hp : f.phase = .active) :
    reply.Marks f'.phase := by
  cases h with
  | broken => exact Reply.marks_abortReply .general
  | @more bs =>
    refine Reply.marks_of_not_aborted (Brigade.eos_not_mem_ofBytes bs) fun cause => ?_
    simp [drained, hp]
  | settled _ _ _ _ hs =>
    exact Reply.marks_of_not_aborted hs.eos_not_mem (hs.phase_ne_aborted hp)

theorem Answers.leads (h : Answers r f reply f') (hp : f.phase = .active) :
    FilterPhase.Leads .active f'.phase := by
  rcases h.phase hp with ha | ⟨hg, -⟩ | ⟨he, -⟩
  · rw [ha]
    exact .stays _
  · rw [hg]
    exact .breaks
  · rw [he]
    exact .ends

variable [Source σ]

theorem Handles.marked (h : Handles r f s reply f' s') : reply.Marks f'.phase := by
  have hopen (hp : f.phase = .active ∨ f.phase = .exhausted) (cause : ReadError) :
      f.phase ≠ .aborted cause := by
    rcases hp with hp | hp <;> simp [hp]
  cases h with
  | unselected e hp =>
    refine Reply.marks_of_not_aborted (by simp [Reply.failed]) fun cause => ?_
    simp [hp]
  | stopped hp =>
    rw [hp]
    exact Reply.marks_abortReply _
  | gone => exact Reply.marks_abortReply .connAborted
  | asked hp => exact Reply.marks_of_not_aborted (Brigade.eos_not_mem_ofBytes []) (hopen hp)
  | ended hp => exact Reply.marks_of_not_aborted (by simp [Reply.failed]) (hopen (Or.inr hp))
  | served hp _ _ ha => exact ha.marked hp

theorem Handles.leads (h : Handles r f s reply f' s') : f.phase.Leads f'.phase := by
  cases h with
  | gone hp => exact .parts hp
  | served hp _ _ ha =>
    rw [hp]
    exact ha.leads hp
  | unselected | stopped | asked | ended => exact .stays _

/-- A read that does not find out which protocol was selected tells why and leaves everything but
what was negotiated as it was. -/
theorem read_of_probe_failed {e : ReadError} (hp : f.phase = .awaitingSelection)
    (h : (Source.read probe s).1.status = .failed e) :
    f.read r s =
      { reply := .ok (Reply.failed e), filter := f.note (Source.read probe s).1
        source := (Source.read probe s).2 } := by
  simp [read, hp, h]

/-- Once it is known which protocol was selected, the filter passes the connection through or is
active. -/
theorem answering_of_probe_ok (hp : f.phase = .awaitingSelection)
    (h : (Source.read probe s).1.status = .ok) :
    f.answering s = .passThrough ∨ f.answering s = .active := by
  rw [answering, approach, if_pos hp, h]
  dsimp only
  rw [select]
  split
  · exact Or.inl rfl
  · exact Or.inl rfl
  · exact Or.inr rfl

/-- The phase after a read follows from the phase in which the read found the filter. -/
theorem leads_read (r : ReadRequest) (f : Filter) (s : σ) :
    (f.answering s).Leads (f.read r s).filter.phase := by
  by_cases hpass : f.answering s = .passThrough
  · rw [hpass, phase_read_of_answering hpass]
    exact .stays _
  · obtain ⟨reply, -, hh⟩ := handles_read (r := r) hpass
    exact hh.leads

theorem answering_of_ne (hp : f.phase ≠ .awaitingSelection) (s : σ) :
    f.answering s = f.phase := by
  rw [answering, approach_of_ne hp]

/-- A filter that finds its connection gone says so, whatever it is asked and whatever it could
still deliver. -/
theorem read_of_isDisturbed (hp : f.phase = .active ∨ f.phase = .exhausted)
    (hd : f.isDisturbed s = true) : f.read r s = abort .connAborted f s [] := by
  have hphase : f.phase ≠ .awaitingSelection := by
    rcases hp with hp | hp <;> simp [hp]
  rw [read, if_neg hphase, readSelected_of_open hp, if_pos hd]

/-! ### Connections that were given up -/

@[simp] theorem aborted_note (reply : Reply) (f : Filter) :
    (f.note reply).context.aborted = f.context.aborted := by
  rw [note]
  split <;> rfl

@[simp] theorem aborted_select (f : Filter) :
    f.select.1.context.aborted = f.context.aborted := by
  rw [select]
  split <;> rfl

/-- No read gives a connection up, or takes that back. -/
theorem aborted_read (r : ReadRequest) (f : Filter) (s : σ) :
    (f.read r s).filter.context.aborted = f.context.aborted := by
  have happroach : (f.approach s).1.context.aborted = f.context.aborted := by
    rw [approach]
    split
    · split <;> simp
    · rfl
  rw [← happroach]
  by_cases hpass : f.answering s = .passThrough
  · rw [filter_read_of_answering hpass]
  · obtain ⟨reply, -, hh⟩ := handles_read (r := r) hpass
    generalize (f.read r s).filter = after at hh ⊢
    generalize (f.read r s).source = source at hh
    cases hh with
    | served _ _ _ ha => rw [ha.frame.2.2]
    | unselected | stopped | gone | asked | ended => rfl

end

end Filter

namespace Session

variable {σ : Type} [Source σ] {t : Session σ}

/-- The rules that a read follows. -/
structure FollowsRules (t : Session σ) (r : ReadRequest) : Prop where
  /-- Who waits for selection and cannot find out about it says why, and nothing changes but what
  was negotiated. -/
  waits : t.filter.phase = .awaitingSelection → ∀ e,
    (Source.read ⟨.speculative, .block, 1⟩ t.source).1.status = .failed e →
      (t.filter.read r t.source).reply = .ok (Reply.failed e) ∧
        (t.step (.read r)).filter =
          t.filter.note (Source.read ⟨.speculative, .block, 1⟩ t.source).1 ∧
        (t.step (.read r)).source = (Source.read ⟨.speculative, .block, 1⟩ t.source).2
  /-- Who finds out goes on from one of two phases in the same read. -/
  selects : t.filter.phase = .awaitingSelection →
    (Source.read ⟨.speculative, .block, 1⟩ t.source).1.status = .ok →
      FilterPhase.Leads .passThrough (t.step (.read r)).filter.phase ∨
        FilterPhase.Leads .active (t.step (.read r)).filter.phase
  leads : t.filter.phase ≠ .awaitingSelection →
    t.filter.phase.Leads (t.step (.read r)).filter.phase
  /-- Who does not pass the connection through answers, and marks the end of the output exactly
  when the filter is aborted. -/
  marks : (t.step (.read r)).filter.phase ≠ .passThrough →
    ∃ reply, (t.filter.read r t.source).reply = .ok reply ∧
      reply.Marks (t.step (.read r)).filter.phase
  /-- Who finds the connection gone says so and leaves the source alone. -/
  departs : t.filter.phase = .active ∨ t.filter.phase = .exhausted →
    t.filter.context.aborted = true ∨ Source.aborted t.source = true →
      (t.filter.read r t.source).reply = .ok (Filter.abortReply .connAborted) ∧
        (t.step (.read r)).filter.phase = .aborted .connAborted ∧
        (t.step (.read r)).source = t.source

theorem followsRules (t : Session σ) (r : ReadRequest) : t.FollowsRules r := by
  constructor
  · intro hp e he
    simp only [step, Filter.read_of_probe_failed hp he]
    exact ⟨trivial, rfl, rfl⟩
  · intro hp hok
    have hleads := Filter.leads_read r t.filter t.source
    rcases Filter.answering_of_probe_ok hp hok with ha | ha
    · rw [ha] at hleads
      exact Or.inl hleads
    · rw [ha] at hleads
      exact Or.inr hleads
  · intro hp
    have hleads := Filter.leads_read r t.filter t.source
    rw [Filter.answering_of_ne hp] at hleads
    exact hleads
  · intro hpass
    obtain ⟨reply, hreply, hh⟩ := Filter.handles_read (r := r) (f := t.filter) (s := t.source)
      fun hp => hpass (Filter.phase_read_of_answering hp)
    exact ⟨reply, hreply, hh.marked⟩
  · intro hp hgone
    have hd : t.filter.isDisturbed t.source = true := Bool.or_eq_true_iff.mpr hgone
    simp only [step, Filter.read_of_isDisturbed hp hd]
    exact ⟨rfl, rfl, rfl⟩

/-- What others do between reads leaves the phase alone. -/
theorem phase_step_of_ne_read {a : Act σ} (h : ∀ r, a ≠ .read r) :
    (t.step a).filter.phase = t.filter.phase := by
  cases a with
  | read r => exact absurd rfl (h r)
  | giveUp | agree | move => rfl

/-- After selection, whatever happens leads on by the rules. -/
theorem leads_step (hp : t.filter.phase ≠ .awaitingSelection) (a : Act σ) :
    t.filter.phase.Leads (t.step a).filter.phase := by
  cases a with
  | read r => exact (followsRules t r).leads hp
  | giveUp | agree | move => exact .stays _

/-- Filters that pass their connection through, and aborted ones, stay as they are. -/
theorem phase_run_of_final {p : FilterPhase} (hp : t.filter.phase = p)
    (hs : p ≠ .awaitingSelection) (ha : p ≠ .active) (he : p ≠ .exhausted) (acts : List (Act σ)) :
    (t.run acts).filter.phase = p := by
  induction acts generalizing t with
  | nil => exact hp
  | cons a acts ih =>
    subst hp
    exact ih ((leads_step hs a).eq ha he)

/-- A connection that was given up stays so. -/
theorem aborted_run (h : t.filter.context.aborted = true) (acts : List (Act σ)) :
    (t.run acts).filter.context.aborted = true := by
  induction acts generalizing t with
  | nil => exact h
  | cons a acts ih =>
    refine ih ?_
    cases a with
    | read r => exact (Filter.aborted_read r t.filter t.source).trans h
    | giveUp => rfl
    | agree | move => exact h

/-- What lasts, whatever happens to a filter. -/
structure Lasts (t : Session σ) : Prop where
  /-- Only reads change the phase. -/
  between : ∀ a, (∀ r, a ≠ .read r) → (t.step a).filter.phase = t.filter.phase
  passThrough : t.filter.phase = .passThrough →
    ∀ acts, (t.run acts).filter.phase = .passThrough
  aborted : ∀ cause, t.filter.phase = .aborted cause →
    ∀ acts, (t.run acts).filter.phase = .aborted cause
  exhausted : t.filter.phase = .exhausted → ∀ acts,
    (t.run acts).filter.phase = .exhausted ∨ (t.run acts).filter.phase = .aborted .connAborted
  givenUp : t.filter.context.aborted = true → ∀ acts, (t.run acts).filter.context.aborted = true

theorem lasts (t : Session σ) : t.Lasts where
  between _ h := phase_step_of_ne_read h
  passThrough hp := phase_run_of_final hp nofun nofun nofun
  aborted _ hp := phase_run_of_final hp nofun nofun nofun
  exhausted hp := phase_run_of_exhausted (Or.inl hp)
  givenUp := aborted_run

/--
Whatever has happened so far, the next read follows the rules of the phases; and however a session
goes on, only reads change the phase, a filter passes its connection through or is aborted for
good, and one that is exhausted can only find its connection gone.
-/
theorem keeps_phases (t : Session σ) : (∀ r, t.FollowsRules r) ∧ t.Lasts :=
  ⟨followsRules t, lasts t⟩

/-- Bytes are queued when the connection is given up. A read that asks for none marks the end. -/
example :
    let piece := (Frame.opening 1 "/a" 1).bytes ++ (Frame.opening 3 "/b" 1).bytes
    let t := (start { protocol := .multiplexed } {} (ScriptedSource.ofBytes piece .ok)).run
      [.read ⟨.bytes, .block, 5⟩, .giveUp]
    t.filter.demux.feed.hasData = true ∧
      (t.filter.read ⟨.init, .block, 0⟩ t.source).reply.toOption =
        some (Filter.abortReply .connAborted) := by
  decide +kernel

end Session
end RequestFeed
