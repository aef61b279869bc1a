import RequestFeed.Proofs.Feed.Deliveries
import RequestFeed.Proofs.Request.Reading
/-!
# The order of a feed

A feed holds what the requests of its account have produced, less what has been read. The head of
its queue is the only request that bytes have been taken from and that is still there; the
requests before it have been released.

*Invariant.* `Feed.Serves f ps out`: the account is made of requests that were released, and of
the requests of the feed with the bytes put back that have been read of the head. As long as no
failed request has been released, `out` is all that the released requests have produced, followed
by what has been read of the head. Afterwards `out` stays what it was.

*Results.* Deliveries, pruning and draining keep the invariant (`Serves.deliverAll`,
`Serves.prune`, `Serves.drain`). A feed that serves an account serves it in turn
(`Serves.inTurn`), and reports a failure exactly when one is next in turn and nothing is left to
deliver before it (`Serves.isBlocked_of_hasError`, `Serves.all_of_idle`).
-/

namespace RequestFeed

namespace Projection

/-- Puts bytes back in front of what a request holds. -/
def prepend (bs : Bytes) (p : Projection) : Projection :=
  { p with output := { p.output with held := .ofBytes (bs ++ p.output.held.bytes) } }

@[simp] theorem prepend_nil (p : Projection) : p.prepend [] = p := by
  simp [prepend]

@[simp] theorem written_prepend (bs : Bytes) (p : Projection) :
    (p.prepend bs).written = bs ++ p.written := rfl

@[simp] theorem growth_prepend (bs : Bytes) (p : Projection) :
    (p.prepend bs).output.growth = p.output.growth := rfl

@[simp] theorem isFinished_prepend (bs : Bytes) (p : Projection) :
    (p.prepend bs).isFinished = p.isFinished := rfl

theorem append_prepend (bs more : Bytes) (p : Projection) :
    (p.prepend bs).output.append more =
      (((({ p with output := (p.output.append more).1 } : Projection).prepend bs).output),
        (p.output.append more).2) := by
  have hc : (p.prepend bs).output.isComplete = p.output.isComplete := rfl
  unfold Accumulator.append
  rw [hc]
  split
  · rfl
  · refine Prod.ext ?_ rfl
    simp only [prepend]
    congr 1
    exact ByteQueue.ext (by simp)

/-- What has been read has no bearing on what events do. -/
theorem step_prepend (bs : Bytes) (e : StreamEvent) (p : Projection) :
    (p.prepend bs).step e = ((p.step e).1.prepend bs, (p.step e).2) := by
  unfold step
  rw [isFinished_prepend]
  split
  · rfl
  · have hs : (p.prepend bs).stage = p.stage := rfl
    rw [hs]
    cases p.stage.advance e with
    | error cause => rfl
    | ok answer =>
      simp only [append_prepend]
      refine Prod.ext ?_ rfl
      by_cases hf : answer.2 = .finished
      · simp only [hf, if_true]
        rfl
      · simp only [hf, if_false]
        rfl

theorem hear_prepend (bs : Bytes) (d : Delivery) (p : Projection) :
    (p.prepend bs).hear d = (p.hear d).prepend bs := by
  have hs : (p.prepend bs).stream = p.stream := rfl
  cases d with
  | created stream => rfl
  | event stream e =>
    simp only [hear, hs]
    split
    · rw [step_prepend]
    · rfl

end Projection

namespace Account

/-- Puts bytes back in front of what the first request holds. -/
def restore (bs : Bytes) : Account → Account
  | [] => []
  | p :: ps => p.prepend bs :: ps

@[simp] theorem restore_nil (ps : Account) : restore [] ps = ps := by
  cases ps <;> simp [restore]

theorem record_restore {bs : Bytes} {ps : Account} (h : ps = [] → bs = []) (d : Delivery) :
    record d (restore bs ps) = restore bs (record d ps) := by
  cases ps with
  | nil => simp [h rfl]
  | cons p ps => simp [restore, record_cons, Projection.hear_prepend]

theorem record_append_of_finished {gone : Account} (h : ∀ p ∈ gone, p.isFinished = true)
    (d : Delivery) (ps : Account) : record d (gone ++ ps) = gone ++ record d ps := by
  induction gone with
  | nil => rfl
  | cons p gone ih =>
    rw [List.cons_append, record_cons, List.cons_append,
      Projection.hear_of_isFinished (h p List.mem_cons_self),
      ih fun q hq => h q (List.mem_cons_of_mem p hq)]

variable {gone ps : Account} {out : Bytes}

theorem InTurn.append (h : InTurn gone out) (ps : Account) : InTurn (gone ++ ps) out := by
  induction h with
  | stop gone => exact .stop _
  | part hp => exact .part hp
  | next hg _ ih => exact .next hg ih

theorem inTurn_append (h : ∀ p ∈ gone, p.output.growth = .complete) (hps : InTurn ps out) :
    InTurn (gone ++ ps) (gone.flatMap Projection.written ++ out) := by
  induction gone with
  | nil => exact hps
  | cons p gone ih =>
    rw [List.cons_append, List.flatMap_cons, List.append_assoc]
    exact .next (h p List.mem_cons_self) (ih fun q hq => h q (List.mem_cons_of_mem p hq))

theorem isBlocked_append (h : isBlocked gone = true) (ps : Account) :
    isBlocked (gone ++ ps) = true := by
  induction gone with
  | nil => simp [isBlocked] at h
  | cons p gone ih =>
    rw [isBlocked] at h
    rw [List.cons_append, isBlocked]
    cases hg : p.output.growth <;> simp_all

theorem isBlocked_append_of_complete (h : ∀ p ∈ gone, p.output.growth = .complete) :
    isBlocked (gone ++ ps) = isBlocked ps := by
  induction gone with
  | nil => rfl
  | cons p gone ih =>
    rw [List.cons_append, isBlocked, h p List.mem_cons_self]
    exact ih fun q hq => h q (List.mem_cons_of_mem p hq)

theorem throughGrowing_append_of_complete (h : ∀ p ∈ gone, p.output.growth = .complete) :
    throughGrowing (gone ++ ps) = gone ++ throughGrowing ps := by
  induction gone with
  | nil => rfl
  | cons p gone ih =>
    have hp : p.output.isComplete = true := by
      simp [Accumulator.isComplete, h p List.mem_cons_self]
    rw [List.cons_append, throughGrowing, hp, if_pos rfl,
      ih fun q hq => h q (List.mem_cons_of_mem p hq), List.cons_append]

theorem leading_append_of_complete (h : ∀ p ∈ gone, p.output.growth = .complete) :
    leading (gone ++ ps) = gone ++ leading ps := by
  induction gone with
  | nil => rfl
  | cons p gone ih =>
    rw [List.cons_append, leading, if_pos (h p List.mem_cons_self),
      ih fun q hq => h q (List.mem_cons_of_mem p hq), List.cons_append]

end Account

namespace Feed

/-- The feed serves the requests of an account, and has delivered `out` so far. -/
def Serves (f : Feed) (ps : Account) (out : Bytes) : Prop :=
  ∃ gone part, ps = gone ++ Account.restore part f.requests ∧ (f.requests = [] → part = []) ∧
    (∀ p ∈ gone, p.isFinished = true) ∧
    (f.failed = false ∧ (∀ p ∈ gone, p.output.growth = .complete) ∧
        out = gone.flatMap Projection.written ++ part ∨
      f.failed = true ∧ Account.isBlocked gone = true ∧ Account.InTurn gone out)

theorem serves_new : ({} : Feed).Serves [] [] :=
  ⟨[], [], rfl, fun _ => rfl, by simp, Or.inl ⟨rfl, by simp, rfl⟩⟩

variable {f : Feed} {highest : StreamId} {ps : Account} {out : Bytes}

theorem Serves.inTurn (h : f.Serves ps out) : ps.InTurn out := by
  obtain ⟨gone, part, rfl, hpart, -, hstate⟩ := h
  rcases hstate with ⟨-, hcomplete, rfl⟩ | ⟨-, -, hturn⟩
  · refine Account.inTurn_append hcomplete ?_
    cases hr : f.requests with
    | nil =>
      rw [hpart hr]
      exact .stop _
    | cons p rest => exact .part (List.prefix_append part p.written)
  · exact hturn.append _

/-! ### Deliveries -/

/-- A delivery that does the same to the feed and to the account keeps the order. -/
theorem Serves.deliver {d : Delivery} (h : f.Serves ps out)
    (hr : (f.deliver d).1.requests = Account.record d f.requests) :
    (f.deliver d).1.Serves (ps.record d) out := by
  obtain ⟨gone, part, rfl, hpart, hgone, hstate⟩ := h
  refine ⟨gone, part, ?_, ?_, hgone, ?_⟩
  · rw [Account.record_append_of_finished hgone, Account.record_restore hpart, hr]
  · intro hnil
    rw [hr, Account.record, List.append_eq_nil_iff, List.map_eq_nil_iff] at hnil
    exact hpart hnil.1
  · rw [failed_deliver]
    exact hstate

/-- Deliveries that create streams with increasing numbers keep a feed in order. -/
theorem Serves.deliverAll {ds : List Delivery} {last : StreamId} (h : f.Serves ps out)
    (ht : f.Tidy highest) (hd : Transcript.Opens highest ds last) :
    (Feed.deliverAll ds f).1.Serves (ps.recordAll ds) out := by
  induction hd generalizing f ps with
  | nil => exact h
  | @created highest stream last ds hlt _ ih =>
    exact ih (h.deliver (requests_deliver_created stream f)) (ht.deliver_created hlt)
  | event stream e _ ih =>
    exact ih (h.deliver (requests_deliver_event ht stream e)) (ht.deliver_event stream e)

/-! ### Pruning -/

end Feed

namespace Slot

variable {s : Slot}

theorem hasError_eq_true_iff : s.hasError = true ↔ s.projection.output.growth = .failed := by
  simp [hasError, Accumulator.hasError]

theorem growth_ne_of_isSpent (h : s.isSpent = true) : s.projection.output.growth ≠ .growing := by
  simp only [isSpent, Bool.and_eq_true] at h
  simpa [Accumulator.isComplete] using h.1

/-- A request that is finished with and has not failed is complete, and all of it has been read. -/
theorem complete_of_isSpent (h : s.isSpent = true) (herr : s.hasError = false) :
    s.projection.output.growth = .complete ∧ s.projection.written = [] := by
  have hended := growth_ne_of_isSpent h
  have hfailed : s.projection.output.growth ≠ .failed := by
    rw [Ne, ← hasError_eq_true_iff, herr]
    exact Bool.false_ne_true
  constructor
  · cases hg : s.projection.output.growth with
    | growing => exact absurd hg hended
    | failed => exact absurd hg hfailed
    | complete => rfl
  · have herr : s.projection.output.hasError = false := herr
    simp only [isSpent, Bool.and_eq_true, Bool.or_eq_true, herr] at h
    exact ByteQueue.isEmpty_eq_true_iff.mp (by simpa using h.2)

end Slot

namespace Feed

variable {f : Feed} {highest : StreamId} {ps : Account} {out : Bytes}

theorem prune_of_isSpent {s : Slot} {rest : List Slot} (h : f.slots = s :: rest)
    (hs : s.isSpent = true) :
    f.prune = prune { f with slots := rest, failed := f.failed || s.hasError } := by
  simp [prune, spent, h, hs, Bool.or_assoc]

theorem prune_of_not_isSpent {s : Slot} {rest : List Slot} (h : f.slots = s :: rest)
    (hs : s.isSpent = false) : f.prune = f := by
  cases f
  simp only at h
  simp [prune, spent, h, hs]

theorem prune_of_nil (h : f.slots = []) : f.prune = f := by
  cases f
  simp only at h
  simp [prune, spent, h]

theorem Serves.release {s : Slot} {rest : List Slot} (h : f.Serves ps out) (hc : ps.Coherent)
    (hslots : f.slots = s :: rest) (hs : s.isSpent = true) :
    Serves { f with slots := rest, failed := f.failed || s.hasError } ps out := by
  obtain ⟨gone, part, rfl, -, hgone, hstate⟩ := h
  have hreq : f.requests = s.projection :: rest.map Slot.projection := by
    simp [requests, hslots]
  have hhead : s.projection.prepend part ∈ gone ++ Account.restore part f.requests := by
    simp [hreq, Account.restore]
  have hfinished : (s.projection.prepend part).isFinished = true :=
    (hc _ hhead).mpr (Slot.growth_ne_of_isSpent hs)
  -- the bytes that were read of the head are put back before it joins the released requests
  refine ⟨gone ++ [s.projection.prepend part], [], ?_, fun _ => rfl, ?_, ?_⟩
  · rw [hreq, Account.restore, Account.restore_nil, List.append_assoc]
    rfl
  · intro p hp
    rcases List.mem_append.mp hp with hp | hp
    · exact hgone p hp
    · rw [List.mem_singleton.mp hp]
      exact hfinished
  · rcases hstate with ⟨hf, hall, rfl⟩ | ⟨hf, hblocked, hturn⟩
    · cases herr : s.hasError with
      | true =>
        -- the failed request is the first that is not complete
        right
        have hfailed := Slot.hasError_eq_true_iff.mp herr
        refine ⟨by simp, ?_, Account.inTurn_append hall (.part (List.prefix_append part _))⟩
        rw [Account.isBlocked_append_of_complete hall]
        simp [Account.isBlocked, hfailed]
      | false =>
        left
        obtain ⟨hgrowth, hempty⟩ := Slot.complete_of_isSpent hs herr
        refine ⟨by simp [hf], ?_, by simp [hempty]⟩
        intro p hp
        rcases List.mem_append.mp hp with hp | hp
        · exact hall p hp
        · rw [List.mem_singleton.mp hp]
          exact hgrowth
    · right
      exact ⟨by simp [hf], Account.isBlocked_append hblocked _, hturn.append _⟩

theorem Serves.prune (h : f.Serves ps out) (hc : ps.Coherent) : f.prune.Serves ps out := by
  induction hs : f.slots generalizing f with
  | nil =>
    rw [prune_of_nil hs]
    exact h
  | cons s rest ih =>
    cases hspent : s.isSpent with
    | true =>
      rw [prune_of_isSpent hs hspent]
      exact ih (h.release hc hs hspent) rfl
    | false =>
      rw [prune_of_not_isSpent hs hspent]
      exact h

theorem Tidy.prune (h : f.Tidy highest) : f.prune.Tidy highest := by
  have hsub : List.Sublist f.prune.slots f.slots := List.dropWhile_sublist _
  exact
    { numbers := h.numbers.sublist (hsub.map _)
      number_lt := fun s hs => h.number_lt s (hsub.subset hs)
      streams := h.streams.sublist (hsub.map _)
      stream_le := fun s hs => h.stream_le s (hsub.subset hs) }

/-! ### Draining -/

/-- What is read of the head is delivered next. -/
theorem Serves.read_head {s : Slot} {rest : List Slot} {r : ReadRequest} (h : f.Serves ps out)
    (hslots : f.slots = s :: rest) (hf : f.failed = false) (hr : r.mode ≠ .init)
    (hheld : s.projection.output.held.bytes ≠ []) :
    Serves
      { f with
        slots :=
          { s with
            projection :=
              { s.projection with output := (s.projection.output.read r).2 } } :: rest }
      ps (out ++ (s.projection.output.read r).1.consumed r) := by
  obtain ⟨bs, -, hreply, hheldEq, hgrowth⟩ := Accumulator.read_eq hr hheld
  obtain ⟨gone, part, rfl, -, hgone, hstate⟩ := h
  have hreq : f.requests = s.projection :: rest.map Slot.projection := by
    simp [requests, hslots]
  rcases hstate with ⟨-, hall, rfl⟩ | ⟨hfailed, -, -⟩
  · refine ⟨gone, part ++ (Reply.ok bs).consumed r, ?_, ?_, hgone, Or.inl ⟨hf, hall, ?_⟩⟩
    · rw [hreq]
      simp only [Account.restore, requests, List.map_cons, Projection.prepend, hgrowth]
      rw [hheldEq, List.append_assoc]
    · simp [requests]
    · rw [hreply, List.append_assoc]
  · rw [hf] at hfailed
    exact absurd hfailed Bool.false_ne_true

/-- A pruned feed with bytes to deliver has them in a head that has not failed. -/
theorem head_of_hasData (h : f.hasData = true) :
    ∃ s rest, f.prune.slots = s :: rest ∧ f.prune.failed = false ∧ s.hasError = false ∧
      s.projection.output.held.bytes ≠ [] := by
  unfold hasData isReadable at h
  cases hs : f.prune.slots with
  | nil => simp [hs] at h
  | cons s rest =>
    simp only [hs, Bool.and_eq_true, Bool.not_eq_true'] at h
    obtain ⟨hfailed, herr, hempty⟩ := h
    refine ⟨s, rest, rfl, hfailed, herr, ?_⟩
    rw [Ne, ← ByteQueue.isEmpty_eq_true_iff, hempty]
    exact Bool.false_ne_true

theorem hasError_eq_false_of_hasData (h : f.hasData = true) : f.hasError = false := by
  obtain ⟨s, rest, hs, hfailed, herr, -⟩ := head_of_hasData h
  simp [hasError, isFailed, hs, hfailed, herr]

theorem drain_of_hasData {r : ReadRequest} {s : Slot} {rest : List Slot} (h : f.hasData = true)
    (hs : f.prune.slots = s :: rest) :
    (f.drain r).reply = .ok (s.projection.output.read r).1 ∧
      (f.drain r).feed =
        Feed.prune
          { f.prune with
            slots :=
              { s with
                projection :=
                  { s.projection with output := (s.projection.output.read r).2 } } :: rest } := by
  have herr : f.prune.isFailed = false := hasError_eq_false_of_hasData h
  have hdata : f.prune.isReadable = true := h
  simp [drain, herr, hdata, hs]

/-- A feed with nothing to deliver gives nothing. -/
theorem drain_of_idle (r : ReadRequest) (herr : f.hasError = false) (hdata : f.hasData = false) :
    (f.drain r).reply = .ok (Reply.ok []) ∧ (f.drain r).feed = f.prune := by
  have herr : f.prune.isFailed = false := herr
  have hdata : f.prune.isReadable = false := hdata
  simp [drain, herr, hdata, Reply.ok, Brigade.ofBytes]

/-- Draining delivers bytes when there are some, and succeeds. -/
theorem reply_drain {r : ReadRequest} (h : f.hasData = true) (hr : r.mode ≠ .init) :
    ∃ bs, bs ≠ [] ∧ (f.drain r).reply = .ok (Reply.ok bs) := by
  obtain ⟨s, rest, hs, -, -, hheld⟩ := head_of_hasData h
  obtain ⟨bs, hne, hreply, -, -⟩ := Accumulator.read_eq hr hheld
  exact ⟨bs, hne, by rw [(drain_of_hasData h hs).1, hreply]⟩

/-- Draining keeps the order: what it consumes is delivered next. -/
theorem Serves.drain {r : ReadRequest} {reply : Reply} (h : f.Serves ps out) (hc : ps.Coherent)
    (hr : r.mode ≠ .init) (hreply : (f.drain r).reply = .ok reply) :
    (f.drain r).feed.Serves ps (out ++ reply.consumed r) := by
  have hpruned := h.prune hc
  cases hdata : f.hasData with
  | true =>
    obtain ⟨s, rest, hs, hfailed, -, hheld⟩ := head_of_hasData hdata
    obtain ⟨hok, hfeed⟩ := drain_of_hasData (r := r) hdata hs
    rw [hok, Except.ok.injEq] at hreply
    rw [hfeed, ← hreply]
    exact (hpruned.read_head hs hfailed hr hheld).prune hc
  | false =>
    cases herr : f.hasError with
    | true =>
      have : f.prune.isFailed = true := herr
      simp [Feed.drain, this] at hreply
    | false =>
      obtain ⟨hok, hfeed⟩ := drain_of_idle r herr hdata
      rw [hok, Except.ok.injEq] at hreply
      rw [hfeed, ← hreply, Reply.consumed_of_bytes_eq_nil rfl, List.append_nil]
      exact hpruned

/-- When all requests are finished, draining delivers bytes of requests that are complete, as are
all before them. -/
theorem Serves.leading {r : ReadRequest} {reply : Reply} (h : f.Serves ps out)
    (hc : ps.Coherent) (hall : ps.UnfinishedIn []) (hdata : f.hasData = true) (hr : r.mode ≠ .init)
    (hreply : (f.drain r).reply = .ok reply) :
    out ++ reply.consumed r <+: ps.leading.flatMap Projection.written := by
  obtain ⟨s, rest, hs, hfailed, herr, hheld⟩ := head_of_hasData hdata
  obtain ⟨bs, -, hread, hheldEq, -⟩ := Accumulator.read_eq hr hheld
  rw [(drain_of_hasData hdata hs).1, hread, Except.ok.injEq] at hreply
  subst hreply
  obtain ⟨gone, part, rfl, -, -, hstate⟩ := h.prune hc
  rcases hstate with ⟨-, hcomplete, rfl⟩ | ⟨hf, -, -⟩
  · have hreq : f.prune.requests = s.projection :: rest.map Slot.projection := by
      simp [requests, hs]
    rw [hreq, Account.restore] at hc hall ⊢
    have hmem : s.projection.prepend part ∈
        gone ++ s.projection.prepend part :: rest.map Slot.projection := by simp
    -- the head is finished and has not failed
    have hgrowth : (s.projection.prepend part).output.growth = .complete := by
      have hfinished : (s.projection.prepend part).isFinished = true := by
        cases hf : (s.projection.prepend part).isFinished with
        | true => rfl
        | false => exact absurd (hall _ hmem hf) List.not_mem_nil
      have hended := (hc _ hmem).mp hfinished
      rw [Projection.growth_prepend] at hended ⊢
      simp only [Slot.hasError, Accumulator.hasError] at herr
      cases hg : s.projection.output.growth <;> simp_all
    rw [Account.leading_append_of_complete hcomplete, Account.leading, if_pos hgrowth,
      List.flatMap_append, List.append_assoc, List.flatMap_cons, Projection.written_prepend,
      Projection.written, hheldEq]
    refine (List.prefix_append_right_inj _).mpr ?_
    rw [List.append_assoc, List.append_assoc]
    exact (List.prefix_append_right_inj _).mpr (List.prefix_append _ _)
  · rw [hfailed] at hf
    exact absurd hf Bool.false_ne_true

theorem Tidy.drain {r : ReadRequest} (h : f.Tidy highest) : (f.drain r).feed.Tidy highest := by
  have hpruned := h.prune
  rcases drain_cases r f with ⟨hfeed, -⟩ | ⟨s, rest, hs, hfeed, -⟩
  · rw [hfeed]
    exact hpruned
  · have hread : (f.prune.readHead r s rest).Tidy highest :=
      { numbers := by simpa [readHead, hs] using hpruned.numbers
        number_lt := by simpa [readHead, hs] using hpruned.number_lt
        streams := by simpa [readHead, hs] using hpruned.streams
        stream_le := by simpa [readHead, hs] using hpruned.stream_le }
    rw [hfeed]
    exact hread.prune

/-! ### What a feed reports -/

/-- A failure that is reported is next in turn. -/
theorem Serves.isBlocked_of_hasError (h : f.Serves ps out) (hc : ps.Coherent)
    (herr : f.hasError = true) : ps.isBlocked = true := by
  obtain ⟨gone, part, rfl, -, -, hstate⟩ := h.prune hc
  rcases hstate with ⟨hfailed, hall, -⟩ | ⟨-, hblocked, -⟩
  · rw [Account.isBlocked_append_of_complete hall]
    unfold hasError isFailed at herr
    rw [hfailed, Bool.false_or] at herr
    cases hs : f.prune.slots with
    | nil => simp [hs] at herr
    | cons s rest =>
      simp only [hs] at herr
      have hgrowth := Slot.hasError_eq_true_iff.mp herr
      simp [requests, hs, Account.restore, Account.isBlocked, hgrowth]
  · exact Account.isBlocked_append hblocked _

/-- The head of a pruned feed is not finished with. -/
theorem isSpent_head_prune {s : Slot} {rest : List Slot} (h : f.prune.slots = s :: rest) :
    s.isSpent = false := by
  have := List.head?_dropWhile_not Slot.isSpent f.slots
  have hs : f.slots.dropWhile Slot.isSpent = s :: rest := h
  simpa [hs] using this

@[simp] theorem prune_prune (f : Feed) : f.prune.prune = f.prune := by
  cases hs : f.prune.slots with
  | nil => exact prune_of_nil hs
  | cons s rest => exact prune_of_not_isSpent hs (isSpent_head_prune hs)

@[simp] theorem hasError_prune (f : Feed) : f.prune.hasError = f.hasError := by
  simp [hasError]

@[simp] theorem hasData_prune (f : Feed) : f.prune.hasData = f.hasData := by
  simp [hasData]

/-- A feed that neither fails nor has bytes to deliver waits for the head of its queue, which has
been read in full and is still growing. -/
theorem head_of_idle {s : Slot} {rest : List Slot} (herr : f.hasError = false)
    (hdata : f.hasData = false) (hs : f.prune.slots = s :: rest) :
    s.projection.output.growth = .growing ∧ s.projection.written = [] := by
  unfold hasError isFailed at herr
  obtain ⟨hfailed, herr⟩ := Bool.or_eq_false_iff.mp herr
  simp only [hs] at herr
  simp only [hasData, isReadable, hs, hfailed, herr, Bool.not_false, Bool.true_and,
    Bool.not_eq_false'] at hdata
  have herr' : s.projection.output.hasError = false := herr
  have hspent := isSpent_head_prune hs
  simp only [Slot.isSpent, herr', hdata, Bool.false_or, Bool.and_true] at hspent
  constructor
  · simpa [Accumulator.isComplete] using hspent
  · exact ByteQueue.isEmpty_eq_true_iff.mp hdata

/-- A feed that neither fails nor has bytes to deliver has delivered everything through the first
request that is still growing, and no failure is next in turn. -/
theorem Serves.all_of_idle (h : f.Serves ps out) (hc : ps.Coherent) (herr : f.hasError = false)
    (hdata : f.hasData = false) :
    ps.isBlocked = false ∧ out = ps.throughGrowing.flatMap Projection.written := by
  obtain ⟨gone, part, rfl, hpart, -, hstate⟩ := h.prune hc
  have hfailed : f.prune.failed = false := by
    unfold hasError isFailed at herr
    exact (Bool.or_eq_false_iff.mp herr).1
  rcases hstate with ⟨-, hall, rfl⟩ | ⟨hf, -, -⟩
  · rw [Account.isBlocked_append_of_complete hall, Account.throughGrowing_append_of_complete hall]
    cases hs : f.prune.slots with
    | nil =>
      have hreq : f.prune.requests = [] := by simp [requests, hs]
      simp [hreq, hpart hreq, Account.restore, Account.isBlocked, Account.throughGrowing]
    | cons s rest =>
      obtain ⟨hgrowth, hempty⟩ := head_of_idle herr hdata hs
      simp [requests, hs, Account.restore, Account.isBlocked, Account.throughGrowing, hgrowth,
        Accumulator.isComplete, hempty]
  · rw [hfailed] at hf
    exact absurd hf Bool.false_ne_true

end Feed
end RequestFeed
