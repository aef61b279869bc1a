import RequestFeed.Filter.Basic
/-!
# Progress of filters

Every read that delivers something takes something: from the source, or from what the requests
of the feed hold.

*Measure.* `Advances` compares what is left to take from the source, and then what the feed holds.

*Result.* `advances_of_read`: a read of bytes that delivers some advances.
-/

namespace RequestFeed

namespace Feed

def held (f : Feed) : Nat := total (fun s => s.projection.output.held.size) f.slots

theorem held_prune_le (f : Feed) : f.prune.held ≤ f.held := by
  unfold prune held
  dsimp only
  induction f.slots with
  | nil => exact Nat.le_refl _
  | cons s slots ih =>
    rw [List.dropWhile_cons, total_cons]
    split
    · omega
    · exact Nat.le_refl _

/-- What draining delivers is taken out of what the requests hold. -/
theorem length_drain_add_held_le {r : ReadRequest} {f : Feed} {reply : Reply}
    (hr : r.mode = .bytes) (h : (f.drain r).reply = .ok reply) :
    reply.output.bytes.length + (f.drain r).feed.held ≤ f.held := by
  have hprune := held_prune_le f
  unfold drain at h ⊢
  dsimp only at h ⊢
  generalize f.prune = pruned at h hprune ⊢
  split at h
  · simp at h
  next hf =>
    rw [if_neg hf]
    split at h
    next hd =>
      rw [if_pos hd]
      split at h
      next hs =>
        simp only [Except.ok.injEq] at h
        subst h
        simpa [hs] using hprune
      next s rest hs =>
        simp only [Except.ok.injEq] at h
        subst h
        dsimp only
        refine Nat.le_trans (Nat.add_le_add_left (held_prune_le _) _) (Nat.le_trans ?_ hprune)
        simp only [held, hs, total_cons]
        have := Accumulator.length_read_add_held_le hr s.projection.output
        omega
    next hd =>
      rw [if_neg hd]
      simp only [Except.ok.injEq] at h
      subst h
      simpa using hprune

end Feed

namespace Demultiplexer

section

variable {σ : Type} [Source σ]

/-- Pumping takes something from what remains, or leaves the requests as they are. -/
theorem remaining_pumpFrom (told : List Notice) (blocking : Blocking) (d : Demultiplexer) (s : σ) :
    let after := d.pumpFrom told blocking s
    after.1.remaining after.2.1 < d.remaining s ∨
      after.1.remaining after.2.1 = d.remaining s ∧ after.1.feed.held ≤ d.feed.held := by
  fun_induction pumpFrom told blocking d s with
  | case1 told d s => exact Or.inr ⟨rfl, Feed.held_prune_le d.feed⟩
  | case2 told d s _ _ pumped _ h ih =>
    have hlt : pumped.demux.remaining pumped.source < d.prune.remaining s :=
      remaining_lt_of_progress h
    have : d.prune.remaining s = d.remaining s := rfl
    dsimp only at ih ⊢
    omega
  | case3 told d s _ _ pumped _ h =>
    have := remaining_pump_of_not_progress (by simpa using h)
    have hp := Feed.held_prune_le d.feed
    simp only [pumped, this.2]
    have : d.prune.remaining s = d.remaining s := rfl
    have : d.prune.feed.held = d.feed.prune.held := rfl
    omega

theorem remaining_pumpUntilReady (blocking : Blocking) (d : Demultiplexer) (s : σ) :
    let after := d.pumpUntilReady blocking s
    after.1.remaining after.2.1 < d.remaining s ∨
      after.1.remaining after.2.1 = d.remaining s ∧ after.1.feed.held ≤ d.feed.held :=
  remaining_pumpFrom [] blocking d s

end

end Demultiplexer

namespace Filter

theorem output_settle (reply : Reply) (f : Filter) :
    (f.settle reply).1.output = reply.output := by
  unfold settle
  split
  · rfl
  · dsimp only
    split <;> rfl

theorem demux_settle (reply : Reply) (f : Filter) : (f.settle reply).2.demux = f.demux := by
  unfold settle
  split
  · rfl
  · dsimp only
    split
    · rfl
    · split <;> rfl

theorem bytes_abortReply (cause : ReadError) : (abortReply cause).output.bytes = [] := rfl

/-- An answer that delivers something is taken out of what the feed holds. -/
theorem held_lt_of_answer {σ : Type} {r : ReadRequest} {f : Filter} {s : σ}
    {notices : List Notice} {reply : Reply} (hr : r.mode = .bytes)
    (h : (f.answer r s notices).reply = .ok reply)
    (hb : reply.output.bytes ≠ []) :
    (f.answer r s notices).source = s ∧
      (f.answer r s notices).filter.demux.input = f.demux.input ∧
      (f.answer r s notices).filter.demux.feed.held < f.demux.feed.held := by
  have hdrain (found : Reply) (hf : (f.demux.feed.drain r).reply = .ok found) :
      found.output.bytes.length + (f.demux.feed.drain r).feed.held ≤ f.demux.feed.held :=
    Feed.length_drain_add_held_le hr hf
  unfold answer at h ⊢
  split at h
  · simp only [abort, Except.ok.injEq] at h
    simp [← h, bytes_abortReply] at hb
  next he =>
    rw [if_neg he]
    split at h
    · simp only [abort, Except.ok.injEq] at h
      simp [← h, bytes_abortReply] at hb
    next hf =>
      rw [if_neg hf]
      dsimp only at h ⊢
      generalize f.demux.feed.drain r = drained at h hdrain ⊢
      split at h
      · simp at h
      next found hfound =>
        have hle := hdrain found hfound
        have hout : found.output = reply.output := by
          split at h
          · simp only [Except.ok.injEq] at h
            rw [h]
          · simp only [Except.ok.injEq] at h
            rw [← h, output_settle]
        have : reply.output.bytes.length ≠ 0 := fun h0 => hb (List.length_eq_zero_iff.mp h0)
        rw [hout] at hle
        split
        · exact ⟨rfl, rfl, by dsimp only; omega⟩
        · refine ⟨rfl, ?_, ?_⟩
          · rw [demux_settle]
          · rw [demux_settle]
            dsimp only
            omega

section

variable {σ : Type} [Source σ]

/-- After a read there is less to take than before, or as much to take and less to deliver. -/
def Advances (before after : Filter) (s s' : σ) : Prop :=
  after.demux.remaining s' < before.demux.remaining s ∨
    after.demux.remaining s' = before.demux.remaining s ∧
      after.demux.feed.held < before.demux.feed.held

theorem advances_of_readActive {r : ReadRequest} {f : Filter} {s : σ} {reply : Reply}
    (hr : r.mode = .bytes) (h : (f.readActive r s).reply = .ok reply)
    (hb : reply.output.bytes ≠ []) :
    Advances f (f.readActive r s).filter s (f.readActive r s).source := by
  have hpump := Demultiplexer.remaining_pumpUntilReady r.blocking f.demux s
  unfold readActive at h ⊢
  dsimp only at h hpump ⊢
  generalize f.demux.pumpUntilReady r.blocking s = pumped at h hpump ⊢
  obtain ⟨demux, s', notices⟩ := pumped
  obtain ⟨hs, hi, hh⟩ := held_lt_of_answer hr h hb
  dsimp only at hpump hs hi hh ⊢
  simp only [Advances, Demultiplexer.remaining, hs, hi] at hpump ⊢
  omega

theorem advances_of_passOn {r : ReadRequest} {f : Filter} {s : σ} {reply : Reply}
    (hr : r.mode = .bytes) (h : (f.passOn r s).reply = .ok reply)
    (hb : reply.output.bytes ≠ []) :
    Advances f (f.passOn r s).filter s (f.passOn r s).source := by
  have hread := Source.size_read_add_remaining_le r s hr
  rw [Brigade.size_eq_length_bytes] at hread
  have hlength : reply.output.bytes.length ≠ 0 := fun h0 => hb (List.length_eq_zero_iff.mp h0)
  unfold passOn at h ⊢
  split at h
  · simp at h
  · simp only [Except.ok.injEq] at h
    rw [h] at hread
    left
    simp only [Demultiplexer.remaining, Input.remaining]
    omega

theorem advances_of_readSelected {r : ReadRequest} {f : Filter} {s : σ} {reply : Reply}
    (hr : r.mode = .bytes) (h : (f.readSelected r s).reply = .ok reply)
    (hb : reply.output.bytes ≠ []) :
    Advances f (f.readSelected r s).filter s (f.readSelected r s).source := by
  unfold readSelected at h ⊢
  split at h
  · exact advances_of_passOn hr h hb
  · exact advances_of_passOn hr h hb
  next cause hphase =>
    simp only [Except.ok.injEq] at h
    simp [← h, bytes_abortReply] at hb
  next hphase =>
    split at h
    · simp only [abort, Except.ok.injEq] at h
      simp [← h, bytes_abortReply] at hb
    next ha =>
      rw [if_neg ha]
      split at h
      next hm => simp [hr] at hm
      next hm =>
        rw [if_neg hm]
        exact advances_of_readActive hr h hb
  next hphase =>
    split at h
    · simp only [abort, Except.ok.injEq] at h
      simp [← h, bytes_abortReply] at hb
    · split at h
      next hm => simp [hr] at hm
      · simp only [Except.ok.injEq] at h
        simp [← h, Reply.failed] at hb

theorem demux_note (reply : Reply) (f : Filter) : (f.note reply).demux = f.demux := by
  unfold note
  split <;> rfl

theorem demux_select (f : Filter) : f.select.1.demux = f.demux := by
  unfold select
  split <;> rfl

/-- A read that delivers something advances. -/
theorem advances_of_read {r : ReadRequest} {f : Filter} {s : σ} {reply : Reply}
    (hr : r.mode = .bytes) (h : (f.read r s).reply = .ok reply) (hb : reply.output.bytes ≠ []) :
    Advances f (f.read r s).filter s (f.read r s).source := by
  unfold read at h ⊢
  split at h
  next hphase =>
    rw [if_pos hphase]
    have hprobe := Source.remaining_read_le probe s
    dsimp only at h ⊢
    generalize Source.read probe s = probed at h hprobe ⊢
    obtain ⟨answered, s'⟩ := probed
    dsimp only at h hprobe ⊢
    split at h
    next e he =>
      simp only [Except.ok.injEq] at h
      simp [← h, Reply.failed] at hb
    next he =>
      have hdemux : (f.note answered).select.1.demux = f.demux := by
        rw [demux_select, demux_note]
      generalize (f.note answered).select = selected at h hdemux ⊢
      obtain ⟨g, first⟩ := selected
      dsimp only at h hdemux ⊢
      have := advances_of_readSelected hr h hb
      simp only [Advances, hdemux, Demultiplexer.remaining, Input.remaining] at this ⊢
      omega
  next hphase =>
    rw [if_neg hphase]
    exact advances_of_readSelected hr h hb

end

end Filter
end RequestFeed
