import RequestFeed.Proofs.Filter.Soundness
/-!
# Recorded sources

A source together with everything that it was asked and has answered. Recording changes nothing
about what a source does, and it makes it possible to say what the source has delivered.

*Results.*
* `Recorded.keeps_gave` and `Recorded.probeKeeps_gave`: the recorded deliveries are followed
  through every read of a filter.
* `Source.View.read`: a filter does the same on sources that answer alike, so what holds of a
  filter on a recorded source holds of it on the source itself (`Recorded.view`).
-/

namespace RequestFeed

/-- A source, and what it was asked and has answered so far. -/
structure Recorded (σ : Type) where
  source : σ
  calls : List (ReadRequest × Reply) := []

section

variable {σ τ : Type} [Source σ] [Source τ]

namespace Recorded

instance : Source (Recorded σ) where
  read r s :=
    ((Source.read r s.source).1,
      { source := (Source.read r s.source).2
        calls := s.calls ++ [(r, (Source.read r s.source).1)] })
  violation r s := Source.violation r s.source
  aborted s := Source.aborted s.source
  remaining s := Source.remaining s.source
  violation_eq_none r s h := Source.violation_eq_none r s.source h
  size_read_add_remaining_le r s h := Source.size_read_add_remaining_le r s.source h
  remaining_read_le r s := Source.remaining_read_le r s.source

omit [Source σ] in
/-- The bytes that the source has delivered for good. -/
def delivered (s : Recorded σ) : Bytes := s.calls.flatMap fun call => call.2.consumed call.1

/-- The source has delivered these bytes. -/
def Gave (bs : Bytes) (_last : Status) (s : Recorded σ) : Prop := s.delivered = bs

theorem delivered_read (r : ReadRequest) (s : Recorded σ) :
    (Source.read r s).2.delivered = s.delivered ++ (Source.read r s).1.consumed r := by
  simp [delivered, Source.read]

theorem keeps_gave : Source.Keeps (Gave (σ := σ)) := by
  intro blocking n bs last s h
  rw [Gave, delivered_read, h]
  rfl

theorem probeKeeps_gave : Filter.ProbeKeeps (Gave (σ := σ)) := by
  intro bs last s h
  rw [Gave, delivered_read, h]
  simp [Reply.consumed, Filter.probe, ReadMode.consumes]

end Recorded

/-! ### Sources that answer alike -/

/-- One source can be looked at as another that answers alike. -/
structure Source.View (view : τ → σ) : Prop where
  reply : ∀ r t, (Source.read r (view t)).1 = (Source.read r t).1
  source : ∀ r t, (Source.read r (view t)).2 = view (Source.read r t).2
  violation : ∀ r t, Source.violation r (view t) = Source.violation r t
  aborted : ∀ t, Source.aborted (view t) = Source.aborted t

theorem Recorded.view : Source.View (Recorded.source (σ := σ)) where
  reply _ _ := rfl
  source _ _ := rfl
  violation _ _ := rfl
  aborted _ := rfl

/-- What a read leaves behind, with another look at the source. -/
def FilterRead.map (view : τ → σ) (result : FilterRead τ) : FilterRead σ :=
  { reply := result.reply, filter := result.filter, source := view result.source,
    notices := result.notices }

namespace Source.View

variable {view : τ → σ} (hv : Source.View view)
include hv

theorem take (n : Nat) (blocking : Blocking) (i : Input) (t : τ) :
    i.take n blocking (view t) =
      ((i.take n blocking t).1, (i.take n blocking t).2.1, view (i.take n blocking t).2.2) := by
  have hrefill : i.refill n blocking (view t) =
      ((i.refill n blocking t).1, view (i.refill n blocking t).2) := by
    unfold Input.refill
    split
    · simp [hv.reply, hv.source]
    · rfl
  unfold Input.take
  split
  · rfl
  · rw [hrefill]
    dsimp only
    split <;> rfl

theorem pump (blocking : Blocking) (d : Demultiplexer) (t : τ) :
    (d.pump blocking (view t)).progress = (d.pump blocking t).progress ∧
      (d.pump blocking (view t)).demux = (d.pump blocking t).demux ∧
      (d.pump blocking (view t)).source = view (d.pump blocking t).source ∧
      (d.pump blocking (view t)).notices = (d.pump blocking t).notices := by
  unfold Demultiplexer.pump
  rw [hv.take]
  split
  · exact ⟨rfl, rfl, rfl, rfl⟩
  · dsimp only
    split <;> exact ⟨rfl, rfl, rfl, rfl⟩

theorem pumpUntilReady (blocking : Blocking) (d : Demultiplexer) (t : τ) :
    d.pumpUntilReady blocking (view t) =
      ((d.pumpUntilReady blocking t).1, view (d.pumpUntilReady blocking t).2.1,
        (d.pumpUntilReady blocking t).2.2) := by
  unfold Demultiplexer.pumpUntilReady
  generalize ([] : List Notice) = told
  fun_induction Demultiplexer.pumpFrom told blocking d t with
  | case1 told d t told' hready =>
    rw [Demultiplexer.pumpFrom]
    simp [hready, told']
  | case2 told d t told' hready pumped told'' hp ih =>
    obtain ⟨hprogress, hdemux, hsource, hnotices⟩ := hv.pump blocking d.prune t
    rw [Demultiplexer.pumpFrom]
    simp only [hready, hprogress, hp, hdemux, hsource, hnotices, dif_pos, if_false,
      Bool.false_eq_true]
    exact ih
  | case3 told d t told' hready pumped told'' hp =>
    obtain ⟨hprogress, hdemux, hsource, hnotices⟩ := hv.pump blocking d.prune t
    rw [Demultiplexer.pumpFrom]
    simp [hready, hprogress, hp, hdemux, hsource, hnotices, told', told'', pumped]

theorem readActive (r : ReadRequest) (f : Filter) (t : τ) :
    f.readActive r (view t) = (f.readActive r t).map view := by
  unfold Filter.readActive
  rw [hv.pumpUntilReady]
  unfold Filter.answer
  dsimp only
  split
  · rfl
  · split
    · rfl
    · split
      · rfl
      · split <;> rfl

theorem readSelected (r : ReadRequest) (f : Filter) (t : τ) :
    f.readSelected r (view t) = (f.readSelected r t).map view := by
  have hpass : f.passOn r (view t) = (f.passOn r t).map view := by
    unfold Filter.passOn
    rw [hv.violation, hv.reply, hv.source]
    split <;> rfl
  unfold Filter.readSelected
  rw [hv.aborted, hv.readActive, hpass]
  split
  · rfl
  · rfl
  · rfl
  · split
    · rfl
    · split <;> rfl
  · split
    · rfl
    · split <;> rfl

/-- A filter does the same on sources that answer alike. -/
theorem read (r : ReadRequest) (f : Filter) (t : τ) :
    f.read r (view t) = (f.read r t).map view := by
  unfold Filter.read
  split
  · have hprobe : Source.read Filter.probe (view t) =
        ((Source.read Filter.probe t).1, view (Source.read Filter.probe t).2) :=
      Prod.ext (hv.reply _ t) (hv.source _ t)
    rw [hprobe]
    dsimp only
    split
    · rfl
    · rw [hv.readSelected]
      rfl
  · exact hv.readSelected r f t

end Source.View

end
end RequestFeed
