import RequestFeed.Filter.Progress
import RequestFeed.Proofs.Feed.Pumping
/-!
# Outcomes of reads

Everything that a read from a filter can do, as one case each. A filter that passes its
connection through is left out: it does what its source does.

*Results.*
* `Filter.settles_settle` and `Filter.answers_answer`: how an active filter comes to its answer
  once it has pumped.
* `Filter.handles_read`: how a read is handled, once selection has been looked into.
-/

namespace RequestFeed
namespace Filter

/-! ### Settling -/

/-- What settling makes of bytes that are delivered when there are no more. -/
inductive Settles (f : Filter) (bs : Bytes) : Reply → Filter → Prop where
  /-- Bytes of the last read are still buffered; its status is kept back. -/
  | buffered :
      f.demux.input.buffer ≠ [] → Settles f bs (Reply.ok bs) f
  /-- The last read went well. -/
  | well :
      f.demux.input.buffer = [] → f.demux.input.last = .ok → bs ≠ [] →
      Settles f bs (Reply.ok bs) f
  /-- The last read went well, and there is nothing to deliver. -/
  | waiting :
      f.demux.input.buffer = [] → f.demux.input.last = .ok → bs = [] →
      Settles f bs (Reply.failed .wouldBlock) f
  /-- The last read failed, and the consumer is told. -/
  | told {e : ReadError} :
      f.demux.input.buffer = [] → f.demux.input.last = .failed e →
      (e = .eof → f.demux.feed.hasError = true) →
      Settles f bs { Reply.ok bs with status := .failed e } f
  /-- The last read found the end of the input, and no failure is next in turn. -/
  | ended :
      f.demux.input.buffer = [] → f.demux.input.last = .failed .eof →
      f.demux.feed.hasError = false →
      Settles f bs { Reply.ok bs with status := .failed .eof } { f with phase := .exhausted }

theorem settles_settle (f : Filter) (bs : Bytes) :
    Settles f bs (f.settle (Reply.ok bs)).1 (f.settle (Reply.ok bs)).2 := by
  have hsize : Brigade.size (Brigade.ofBytes bs) = bs.length := by
    rw [Brigade.size_eq_length_bytes, Brigade.bytes_ofBytes]
  by_cases hb : f.demux.input.buffer = []
  · cases hl : f.demux.input.last with
    | ok =>
      by_cases hbs : bs = []
      · have : Settles f bs _ f := .waiting hb hl hbs
        simpa [settle, hb, hl, hbs, Reply.ok, Reply.failed, Brigade.ofBytes, Brigade.size]
          using this
      · have : Settles f bs _ f := .well hb hl hbs
        simpa [settle, hb, hl, hbs, hsize, Reply.ok] using this
    | failed e =>
      by_cases he : e = .eof ∧ f.demux.feed.hasError = false
      · obtain ⟨rfl, herr⟩ := he
        have : Settles f bs _ _ := .ended hb hl herr
        simpa [settle, hb, hl, herr] using this
      · have : Settles f bs _ f := .told hb hl fun heof => by simpa [heof] using he
        simpa [settle, hb, hl, he] using this
  · have : Settles f bs _ f := .buffered hb
    simpa [settle, hb] using this

/-! ### Answers of an active filter -/

/-- The filter after its feed has been read. -/
def drained (r : ReadRequest) (f : Filter) : Filter :=
  { f with demux := { f.demux with feed := (f.demux.feed.drain r).feed } }

/-- How a filter answers once its demultiplexer has pumped. -/
inductive Answers (r : ReadRequest) (f : Filter) : Reply → Filter → Prop where
  /-- The input is unusable, and there is nothing to deliver before that is reported. -/
  | broken :
      (f.demux.feed.hasError = true ∨ f.demux.failed = true ∧ f.demux.feed.hasData = false) →
      Answers r f (abortReply .general)
        { f with demux := f.demux.prune, phase := .aborted .general }
  /-- Bytes are delivered, and there are more. -/
  | more {bs : Bytes} :
      f.demux.feed.hasData = true → bs ≠ [] → (f.demux.feed.drain r).reply = .ok (Reply.ok bs) →
      (f.demux.feed.drain r).feed.hasData = true → Answers r f (Reply.ok bs) (f.drained r)
  /-- All bytes are delivered, or there are none. -/
  | settled {bs : Bytes} {reply : Reply} {f' : Filter} :
      f.demux.feed.hasError = false →
      (f.demux.feed.hasData = true ∧ bs ≠ [] ∨
        f.demux.feed.hasData = false ∧ f.demux.failed = false ∧ bs = []) →
      (f.demux.feed.drain r).reply = .ok (Reply.ok bs) →
      (f.demux.feed.drain r).feed.hasData = false → Settles (f.drained r) bs reply f' →
      Answers r f reply f'

section

variable {σ : Type} {r : ReadRequest} {f : Filter} {bs : Bytes}

theorem answer_of_more (s : σ) (told : List Notice) (hdata : f.demux.feed.hasData = true)
    (hreply : (f.demux.feed.drain r).reply = .ok (Reply.ok bs))
    (hmore : (f.demux.feed.drain r).feed.hasData = true) :
    (f.answer r s told).reply = .ok (Reply.ok bs) ∧ (f.answer r s told).source = s ∧
      (f.answer r s told).filter = f.drained r := by
  have herr := Feed.hasError_eq_false_of_hasData hdata
  simp [answer, herr, hdata, hreply, hmore, drained]

theorem answer_of_no_more (s : σ) (told : List Notice) (herr : f.demux.feed.hasError = false)
    (hdata : f.demux.feed.hasData = true ∨ f.demux.failed = false)
    (hreply : (f.demux.feed.drain r).reply = .ok (Reply.ok bs))
    (hmore : (f.demux.feed.drain r).feed.hasData = false) :
    (f.answer r s told).reply = .ok ((f.drained r).settle (Reply.ok bs)).1 ∧
      (f.answer r s told).source = s ∧
      (f.answer r s told).filter = ((f.drained r).settle (Reply.ok bs)).2 := by
  have hgoes : (f.demux.failed && !f.demux.feed.hasData) = false := by
    rcases hdata with h | h <;> simp [h]
  have hstatus : (Reply.ok bs).status = .ok := rfl
  simp only [answer, herr, hgoes, hreply, hmore, hstatus, drained, Bool.false_eq_true, if_false,
    ne_eq, not_true_eq_false, or_self, and_self]

theorem answers_answer (f : Filter) (s : σ) (told : List Notice) (hr : r.mode ≠ .init) :
    ∃ reply, (f.answer r s told).reply = .ok reply ∧ (f.answer r s told).source = s ∧
      Answers r f reply (f.answer r s told).filter := by
  cases herr : f.demux.feed.hasError with
  | true =>
    simp only [answer, herr, if_true]
    exact ⟨_, rfl, rfl, .broken (Or.inl herr)⟩
  | false =>
    cases hdata : f.demux.feed.hasData with
    | true =>
      obtain ⟨bs, hb, hreply⟩ := Feed.reply_drain hdata hr
      cases hmore : (f.demux.feed.drain r).feed.hasData with
      | true =>
        obtain ⟨hok, hs, hf⟩ := answer_of_more s told hdata hreply hmore
        rw [hf]
        exact ⟨_, hok, hs, .more hdata hb hreply hmore⟩
      | false =>
        obtain ⟨hok, hs, hf⟩ := answer_of_no_more s told herr (Or.inl hdata) hreply hmore
        rw [hf]
        exact ⟨_, hok, hs, .settled herr (Or.inl ⟨hdata, hb⟩) hreply hmore (settles_settle _ _)⟩
    | false =>
      cases hfailed : f.demux.failed with
      | true =>
        simp only [answer, herr, hfailed, hdata, Bool.not_false, Bool.and_true, if_true,
          Bool.false_eq_true, if_false]
        exact ⟨_, rfl, rfl, .broken (Or.inr ⟨hfailed, hdata⟩)⟩
      | false =>
        obtain ⟨hreply, hfeed⟩ := Feed.drain_of_idle r herr hdata
        have hmore : (f.demux.feed.drain r).feed.hasData = false := by
          rw [hfeed, Feed.hasData_prune]
          exact hdata
        obtain ⟨hok, hs, hf⟩ := answer_of_no_more s told herr (Or.inr hfailed) hreply hmore
        rw [hf]
        exact ⟨_, hok, hs,
          .settled herr (Or.inr ⟨hdata, hfailed, rfl⟩) hreply hmore (settles_settle _ _)⟩

end

/-! ### Reads -/

section

variable {σ : Type} [Source σ]

/-- The connection has been given up, or is gone. -/
def isDisturbed (f : Filter) (s : σ) : Bool := f.context.aborted || Source.aborted s

/-- The filter and the source once it is known which protocol was selected, if it can be known. -/
def approach (f : Filter) (s : σ) : Filter × σ :=
  if f.phase = .awaitingSelection then
    match (Source.read probe s).1.status with
    | .failed _ => (f.note (Source.read probe s).1, (Source.read probe s).2)
    | .ok => ((f.note (Source.read probe s).1).select.1, (Source.read probe s).2)
  else (f, s)

/-- The phase in which a read finds a filter, once selection has been looked into. -/
def answering (f : Filter) (s : σ) : FilterPhase := (f.approach s).1.phase

/-- How a filter handles a read once selection has been looked into. -/
inductive Handles (r : ReadRequest) (f : Filter) (s : σ) : Reply → Filter → σ → Prop where
  /-- The protocol is not known yet. -/
  | unselected (e : ReadError) :
      f.phase = .awaitingSelection → Handles r f s (Reply.failed e) f s
  /-- The input is known to be unusable. -/
  | stopped {cause : ReadError} :
      f.phase = .aborted cause → Handles r f s (abortReply cause) f s
  /-- The connection is found to be gone. -/
  | gone :
      f.phase = .active ∨ f.phase = .exhausted → f.isDisturbed s = true →
      Handles r f s (abortReply .connAborted) { f with phase := .aborted .connAborted } s
  /-- The filter is only asked whether it is there. -/
  | asked :
      f.phase = .active ∨ f.phase = .exhausted → f.isDisturbed s = false → r.mode = .init →
      Handles r f s (Reply.ok []) f s
  /-- The input has ended before. -/
  | ended :
      f.phase = .exhausted → f.isDisturbed s = false → r.mode ≠ .init →
      Handles r f s (Reply.failed .eof) f s
  /-- The filter pumps and answers. -/
  | served {reply : Reply} {f' : Filter} :
      f.phase = .active → f.isDisturbed s = false → r.mode ≠ .init →
      Answers r { f with demux := (f.demux.pumpUntilReady r.blocking s).1 } reply f' →
      Handles r f s reply f' (f.demux.pumpUntilReady r.blocking s).2.1

variable {r : ReadRequest} {f : Filter} {s : σ}

/-- An active filter whose connection is still there pumps and answers. -/
theorem Handles.answers {reply : Reply} {f' : Filter} {s' : σ} (h : Handles r f s reply f' s')
    (hp : f.phase = .active) (hd : f.isDisturbed s = false) (hr : r.mode ≠ .init) :
    Answers r { f with demux := (f.demux.pumpUntilReady r.blocking s).1 } reply f' ∧
      s' = (f.demux.pumpUntilReady r.blocking s).2.1 := by
  cases h with
  | unselected _ hp' | stopped hp' | ended hp' => simp [hp] at hp'
  | gone _ hd' => simp [hd] at hd'
  | asked _ _ hr' => exact absurd hr' hr
  | served _ _ _ ha => exact ⟨ha, rfl⟩

/-- An active or exhausted filter first looks whether its connection is still there. -/
theorem readSelected_of_open (hp : f.phase = .active ∨ f.phase = .exhausted) :
    f.readSelected r s =
      if f.isDisturbed s then abort .connAborted f s []
      else if r.mode = .init then { reply := .ok (Reply.ok []), filter := f, source := s }
      else if f.phase = .active then readActive r f s
      else { reply := .ok (Reply.failed .eof), filter := f, source := s } := by
  rcases hp with hp | hp <;> simp [readSelected, hp, isDisturbed, Reply.ok, Brigade.ofBytes]

theorem handles_readActive (hp : f.phase = .active) (hd : f.isDisturbed s = false)
    (hm : r.mode ≠ .init) :
    ∃ reply, (f.readActive r s).reply = .ok reply ∧
      Handles r f s reply (f.readActive r s).filter (f.readActive r s).source := by
  obtain ⟨reply, hreply, hs, hanswers⟩ := answers_answer
    { f with demux := (f.demux.pumpUntilReady r.blocking s).1 }
    (f.demux.pumpUntilReady r.blocking s).2.1 (f.demux.pumpUntilReady r.blocking s).2.2 hm
  unfold readActive
  dsimp only
  rw [hs]
  exact ⟨reply, hreply, .served hp hd hm hanswers⟩

theorem handles_readSelected (hp : f.phase ≠ .awaitingSelection) (hp' : f.phase ≠ .passThrough) :
    ∃ reply, (f.readSelected r s).reply = .ok reply ∧
      Handles r f s reply (f.readSelected r s).filter (f.readSelected r s).source := by
  -- active and exhausted filters look at the connection before they differ
  have hopen (ho : f.phase = .active ∨ f.phase = .exhausted) :
      ∃ reply, (f.readSelected r s).reply = .ok reply ∧
        Handles r f s reply (f.readSelected r s).filter (f.readSelected r s).source := by
    rw [readSelected_of_open ho]
    cases hd : f.isDisturbed s with
    | true => exact ⟨_, rfl, .gone ho hd⟩
    | false =>
      rw [if_neg Bool.false_ne_true]
      by_cases hm : r.mode = .init
      · rw [if_pos hm]
        exact ⟨_, rfl, .asked ho hd hm⟩
      · rw [if_neg hm]
        rcases ho with ha | he
        · rw [if_pos ha]
          exact handles_readActive ha hd hm
        · rw [if_neg (by simp [he])]
          exact ⟨_, rfl, .ended he hd hm⟩
  cases hphase : f.phase with
  | awaitingSelection => exact absurd hphase hp
  | passThrough => exact absurd hphase hp'
  | aborted cause =>
    simp only [readSelected, hphase]
    exact ⟨_, rfl, .stopped hphase⟩
  | active => exact hopen (Or.inl hphase)
  | exhausted => exact hopen (Or.inr hphase)

theorem phase_select_ne (f : Filter) : f.select.1.phase ≠ .awaitingSelection := by
  unfold select
  split <;> simp

@[simp] theorem phase_note (reply : Reply) (f : Filter) : (f.note reply).phase = f.phase := by
  unfold note
  split <;> rfl

/-- Only a filter that awaits selection is changed when selection is looked into. -/
theorem approach_of_ne (h : f.phase ≠ .awaitingSelection) (s : σ) : f.approach s = (f, s) := by
  simp [approach, h]

/-- Every read that does not pass the connection through answers, and in one of these ways. -/
theorem handles_read (h : f.answering s ≠ .passThrough) :
    ∃ reply, (f.read r s).reply = .ok reply ∧
      Handles r (f.approach s).1 (f.approach s).2 reply (f.read r s).filter
        (f.read r s).source := by
  unfold answering approach at h
  unfold read approach
  by_cases hp : f.phase = .awaitingSelection
  · simp only [hp, if_true] at h ⊢
    generalize Source.read probe s = probed at h ⊢
    obtain ⟨answered, s'⟩ := probed
    cases hstatus : answered.status with
    | failed e =>
      simp only
      exact ⟨_, rfl, .unselected e (by rw [phase_note, hp])⟩
    | ok =>
      simp only [hstatus] at h ⊢
      exact handles_readSelected (phase_select_ne _) h
  · rw [if_neg hp] at h ⊢
    rw [if_neg hp]
    exact handles_readSelected hp h

/-- The filter has found out that the connection carries many streams. -/
def Demuxes (f : Filter) : Prop := f.phase ≠ .awaitingSelection ∧ f.phase ≠ .passThrough

/-- A filter that demultiplexes goes on from where it is. -/
theorem Demuxes.handles (hp : f.Demuxes) (r : ReadRequest) (s : σ) :
    ∃ reply, (f.read r s).reply = .ok reply ∧
      Handles r f s reply (f.read r s).filter (f.read r s).source := by
  have happroach := approach_of_ne hp.1 s
  have hanswering : f.answering s ≠ .passThrough := by
    unfold answering
    rw [happroach]
    exact hp.2
  obtain ⟨reply, hreply, hh⟩ := handles_read (r := r) hanswering
  rw [happroach] at hh
  exact ⟨reply, hreply, hh⟩

/-- A connection that is passed through is left to its source. -/
theorem read_of_answering (h : f.answering s = .passThrough) :
    ∃ told, f.read r s =
      { passOn r (f.approach s).1 (f.approach s).2 with notices := told } := by
  have hselected {g : Filter} {s' : σ} (hg : g.phase = .passThrough) :
      g.readSelected r s' = { passOn r g s' with notices := [] } := by
    simp only [readSelected, hg, passOn]
    split <;> rfl
  unfold answering approach at h
  unfold read approach
  by_cases hp : f.phase = .awaitingSelection
  · simp only [hp, if_true] at h ⊢
    generalize Source.read probe s = probed at h ⊢
    obtain ⟨answered, s'⟩ := probed
    cases hstatus : answered.status with
    | failed e => simp [hstatus, hp] at h
    | ok =>
      simp only [hstatus] at h ⊢
      exact ⟨_, by rw [hselected h]⟩
  · rw [if_neg hp] at h
    rw [if_neg hp, if_neg hp]
    exact ⟨[], hselected h⟩

/-- A connection that is passed through leaves the filter as it is. -/
theorem filter_read_of_answering (h : f.answering s = .passThrough) :
    (f.read r s).filter = (f.approach s).1 := by
  obtain ⟨told, hread⟩ := read_of_answering (r := r) h
  rw [hread, passOn]
  split <;> rfl

/-- A connection that is passed through once is passed through from then on. -/
theorem phase_read_of_answering (h : f.answering s = .passThrough) :
    (f.read r s).filter.phase = .passThrough := by
  rw [filter_read_of_answering h]
  exact h

end

end Filter
end RequestFeed
