import RequestFeed.Proofs.Feed.Coherence
import RequestFeed.Proofs.Feed.PumpRun
/-!
# Contracts

The parts of a filter make promises to each other: a feed that has failed is not drained, and
nothing is written to an output after its end. What breaks a promise is either no answer at all or
a notice, so a filter keeps its promises when its reads answer and none of its notices is about
one.

*Invariant.* `Feed.Lawful`: the feed is coherent, and nothing that was told is about a broken
promise.

*Results.*
* `Demultiplexer.lawful_pumpFrom` and `Filter.lawful_read`: a read keeps the invariant.
* `Filter.reply_eq_error_iff`: only a source that is passed through can leave a read without an
  answer.
* `Filter.asks_read`: what else is asked of a source is small.
* `Session.keeps_contracts`: the promises are kept in every session.
-/

namespace RequestFeed

open Notice (Harmless)

/-! ### Demultiplexers -/

namespace Demultiplexer

variable {d : Demultiplexer} {told : List Notice}

theorem lawful_fail (h : d.feed.Coherent) (cause : FrameError) :
    (fail cause d).demux.feed.Lawful (fail cause d).notices := by
  have hdelivered := h.deliverAll d.router.fail.1
  exact ⟨hdelivered.coherent, List.forall_mem_cons.mpr ⟨rfl, hdelivered.harmless⟩⟩

theorem lawful_routeFrom (done : List Delivery) (ht : Harmless told) (h : d.feed.Coherent) :
    (routeFrom done told d).demux.feed.Lawful (routeFrom done told d).notices := by
  fun_induction routeFrom done told d with
  | case1 done told d => exact ⟨h, ht.reverse.append .nil⟩
  | case2 done told d e hnext | case3 done told d f hnext e hdispatch =>
    have hafter := lawful_fail (d := { d with decoder := d.decoder.next.2 }) h e
    exact hafter.after ht.reverse
  | case4 done told d f hnext deliveries router hdispatch feed notices hfeed ih =>
    have hdelivered := h.deliverAll deliveries
    rw [hfeed] at hdelivered
    exact ih (hdelivered.harmless.reverse.append ht) hdelivered.coherent

section

variable {σ : Type} [Source σ]

theorem lawful_pump (h : d.feed.Coherent) (blocking : Blocking) (s : σ) :
    (d.pump blocking s).demux.feed.Lawful (d.pump blocking s).notices := by
  rw [pump]
  split
  · exact ⟨h, .nil⟩
  · dsimp only
    split
    · exact ⟨h, .nil⟩
    · exact lawful_routeFrom [] .nil h

theorem lawful_pumpFrom (ht : Harmless told) (h : d.feed.Coherent) (blocking : Blocking)
    (s : σ) :
    (pumpFrom told blocking d s).1.feed.Lawful (pumpFrom told blocking d s).2.2 := by
  fun_induction pumpFrom told blocking d s with
  | case1 told d s told' =>
    exact ⟨h.prune.coherent, (h.prune.harmless.reverse.append ht).reverse⟩
  | case2 told d s told' hready pumped told'' hp ih =>
    have hpumped := lawful_pump (d := d.prune) h.prune.coherent blocking s
    exact ih (hpumped.harmless.reverse.append (h.prune.harmless.reverse.append ht))
      hpumped.coherent
  | case3 told d s told' hready pumped told'' hp =>
    have hpumped := lawful_pump (d := d.prune) h.prune.coherent blocking s
    exact ⟨hpumped.coherent,
      (hpumped.harmless.reverse.append (h.prune.harmless.reverse.append ht)).reverse⟩

end

end Demultiplexer

/-! ### Filters -/

namespace Filter

section

variable {σ : Type} {r : ReadRequest} {f : Filter} {s : σ}

/-- A read leaves a lawful feed behind. -/
def LeavesLawful (result : FilterRead σ) : Prop :=
  result.filter.demux.feed.Lawful result.notices

theorem lawful_answer {told : List Notice} (h : f.demux.feed.Lawful told) :
    LeavesLawful (f.answer r s told) := by
  have hdrained := (h.coherent.drain r).after h.harmless
  have haborted : LeavesLawful (abort .general { f with demux := f.demux.prune } s told) :=
    ⟨h.coherent.prune.coherent, h.harmless⟩
  rw [answer]
  split
  · exact haborted
  · split
    · exact haborted
    · dsimp only
      split
      · exact hdrained
      · split
        · exact hdrained
        · constructor
          · dsimp only
            rw [demux_settle]
            exact hdrained.coherent
          · exact hdrained.harmless

variable [Source σ]

theorem lawful_passOn (h : f.demux.feed.Coherent) : LeavesLawful (f.passOn r s) := by
  rw [passOn]
  split <;> exact ⟨h, .nil⟩

theorem lawful_readActive (h : f.demux.feed.Coherent) : LeavesLawful (f.readActive r s) :=
  lawful_answer (Demultiplexer.lawful_pumpFrom .nil h r.blocking s)

theorem lawful_readSelected (h : f.demux.feed.Coherent) : LeavesLawful (f.readSelected r s) := by
  have hsame (reply : Reply) (phase : FilterPhase) :
      LeavesLawful { reply := .ok reply, filter := { f with phase }, source := s } := ⟨h, .nil⟩
  rw [readSelected]
  split
  · exact lawful_passOn h
  · exact lawful_passOn h
  · exact hsame _ f.phase
  · split
    · exact hsame _ _
    · split
      · exact hsame _ f.phase
      · exact lawful_readActive h
  · split
    · exact hsame _ _
    · split <;> exact hsame _ f.phase

/-- That nobody selected a protocol breaks no promise. -/
theorem harmless_select (f : Filter) : Harmless f.select.2 := by
  rw [select]
  split
  · exact List.forall_mem_cons.mpr ⟨rfl, Harmless.nil⟩
  · exact .nil
  · exact .nil

theorem lawful_read (h : f.demux.feed.Coherent) : LeavesLawful (f.read r s) := by
  rw [read]
  split
  · dsimp only
    split
    · constructor
      · dsimp only
        rw [demux_note]
        exact h
      · exact Harmless.nil
    · have hselected : (f.note (Source.read probe s).1).select.1.demux.feed.Coherent := by
        rw [demux_select, demux_note]
        exact h
      exact (lawful_readSelected hselected).after (harmless_select _)
  · exact lawful_readSelected h

/-- A read is left without an answer only by a source that it is passed on to. -/
theorem reply_eq_error_iff {v : Violation} :
    (f.read r s).reply = .error v ↔
      f.answering s = .passThrough ∧ Source.violation r (f.approach s).2 = some v := by
  by_cases hpass : f.answering s = .passThrough
  · obtain ⟨told, hread⟩ := read_of_answering (r := r) hpass
    rw [hread, passOn]
    cases hv : Source.violation r (f.approach s).2 <;> simp [hpass]
  · obtain ⟨reply, hreply, -⟩ := handles_read (r := r) hpass
    simp [hreply, hpass]

end

end Filter

/-! ### What is asked of the source -/

/-- From the one to the other, a source was asked for up to `n` bytes at a time. -/
def Recorded.AsksUpTo {σ : Type} (n : Nat) (before after : Recorded σ) : Prop :=
  ∃ asked, after.calls = before.calls ++ asked ∧ ∀ call ∈ asked, call.1.limit ≤ n

namespace Recorded.AsksUpTo

variable {σ : Type} {n m : Nat} {s s' s'' : Recorded σ}

theorem refl (n : Nat) (s : Recorded σ) : AsksUpTo n s s := ⟨[], by simp, nofun⟩

theorem trans (h : AsksUpTo n s s') (k : AsksUpTo n s' s'') : AsksUpTo n s s'' := by
  obtain ⟨first, hfirst, hn⟩ := h
  obtain ⟨others, hothers, hn'⟩ := k
  refine ⟨first ++ others, ?_, List.forall_mem_append.mpr ⟨hn, hn'⟩⟩
  rw [hothers, hfirst, List.append_assoc]

theorem mono (h : AsksUpTo n s s') (hm : n ≤ m) : AsksUpTo m s s' := by
  obtain ⟨asked, hcalls, hn⟩ := h
  exact ⟨asked, hcalls, fun call hcall => Nat.le_trans (hn call hcall) hm⟩

end Recorded.AsksUpTo

open Recorded (AsksUpTo)

namespace Demultiplexer

variable {σ : Type} [Source σ] {d : Demultiplexer}

theorem asks_pump (hd : d.chunk ≠ 0) (blocking : Blocking) (s : Recorded σ) :
    AsksUpTo d.chunk s (d.pump blocking s).source := by
  refine ⟨_, Recorded.calls_pump hd blocking s, ?_⟩
  intro call hcall
  split at hcall
  · obtain rfl := List.mem_singleton.mp hcall
    exact Nat.le_refl _
  · simp at hcall

theorem asks_pumpUntilReady (hd : d.chunk ≠ 0) (blocking : Blocking) (s : Recorded σ) :
    AsksUpTo d.chunk s (d.pumpUntilReady blocking s).2.1 := by
  rw [pumpUntilReady]
  generalize ([] : List Notice) = told
  fun_induction pumpFrom told blocking d s with
  | case1 told d s => exact .refl _ s
  | case2 told d s _ _ pumped _ _ ih =>
    have hchunk : pumped.demux.chunk = d.chunk := chunk_pump blocking d.prune s
    rw [hchunk] at ih
    exact (asks_pump (d := d.prune) hd blocking s).trans (ih hd)
  | case3 told d s _ _ pumped _ _ => exact asks_pump (d := d.prune) hd blocking s

end Demultiplexer

namespace Filter

variable {σ : Type} {r : ReadRequest} {f f' : Filter}

theorem Answers.chunk {reply : Reply} (h : Answers r f reply f') :
    f'.demux.chunk = f.demux.chunk := by
  cases h with
  | broken _ => rfl
  | more _ _ _ _ => rfl
  | settled _ _ _ _ hs =>
    rw [hs.frame.2.1]
    rfl

variable [Source σ]

theorem Handles.chunk {s s' : σ} {reply : Reply} (h : Handles r f s reply f' s') :
    f'.demux.chunk = f.demux.chunk := by
  cases h with
  | served _ _ _ ha =>
    rw [ha.chunk]
    exact Demultiplexer.chunk_pumpUntilReady r.blocking f.demux s
  | unselected | stopped | gone | asked | ended => rfl

theorem Handles.asks {s s' : Recorded σ} {reply : Reply} (hd : f.demux.chunk ≠ 0)
    (h : Handles r f s reply f' s') : AsksUpTo f.demux.chunk s s' := by
  cases h with
  | served => exact Demultiplexer.asks_pumpUntilReady hd r.blocking s
  | unselected | stopped | gone | asked | ended => exact .refl _ s

theorem chunk_read (r : ReadRequest) (f : Filter) (s : σ) :
    (f.read r s).filter.demux.chunk = f.demux.chunk := by
  rw [← demux_approach f s]
  by_cases hpass : f.answering s = .passThrough
  · rw [filter_read_of_answering hpass]
  · obtain ⟨reply, -, hh⟩ := handles_read (r := r) hpass
    exact hh.chunk

/-- To find out which protocol was selected takes one byte. -/
theorem asks_approach (f : Filter) (s : Recorded σ) : AsksUpTo 1 s (f.approach s).2 := by
  have hprobe : AsksUpTo 1 s (Source.read probe s).2 :=
    ⟨[(probe, (Source.read probe s.source).1)], rfl, by simp [probe]⟩
  rw [approach]
  split
  · split
    · exact hprobe
    · exact hprobe
  · exact .refl 1 s

/-- A read that is not passed on asks for no more than the demultiplexer takes at once. -/
theorem asks_read {s : Recorded σ} (hd : f.demux.chunk ≠ 0)
    (hpass : f.answering s ≠ .passThrough) :
    AsksUpTo f.demux.chunk s (f.read r s).source := by
  obtain ⟨reply, -, hh⟩ := handles_read (r := r) hpass
  refine ((asks_approach f s).mono (Nat.one_le_iff_ne_zero.mpr hd)).trans ?_
  rw [← demux_approach f s] at hd ⊢
  exact hh.asks hd

end Filter

/-! ### Sessions -/

namespace Session

variable {σ : Type} [Source σ] {t : Session σ}

theorem coherent_step (h : t.filter.demux.feed.Coherent) (a : Act σ) :
    (t.step a).filter.demux.feed.Coherent := by
  cases a with
  | read r => exact (Filter.lawful_read h).coherent
  | giveUp | agree | move => exact h

theorem coherent_run (h : t.filter.demux.feed.Coherent) (acts : List (Act σ)) :
    (t.run acts).filter.demux.feed.Coherent := by
  induction acts generalizing t with
  | nil => exact h
  | cons a acts ih => exact ih (coherent_step h a)

theorem chunk_step (a : Act σ) (t : Session σ) :
    (t.step a).filter.demux.chunk = t.filter.demux.chunk := by
  cases a with
  | read r => exact Filter.chunk_read r t.filter t.source
  | giveUp | agree | move => rfl

theorem chunk_run (acts : List (Act σ)) (t : Session σ) :
    (t.run acts).filter.demux.chunk = t.filter.demux.chunk := by
  induction acts generalizing t with
  | nil => rfl
  | cons a acts ih => exact (ih _).trans (chunk_step a t)

/--
Whatever happens, the parts of a filter keep their promises: no notice of a read is about a broken
one, and a read is left without an answer only by a source that it is passed on to and that has
no room for it. A read that is not passed on asks its source for a chunk at most.
-/
theorem keeps_contracts (context : ConnectionContext) (c : FilterConfig) (s : σ)
    (acts : List (Act σ)) (r : ReadRequest) :
    let t := (start context c s).run acts
    let result := t.filter.read r t.source
    (∀ n ∈ result.notices, n.violation? = none) ∧
      (∀ v, result.reply = .error v ↔
        t.filter.answering t.source = .passThrough ∧
          Source.violation r (t.filter.approach t.source).2 = some v) ∧
      (t.filter.answering t.source ≠ .passThrough →
        t.source.AsksUpTo (Nat.max c.readChunkSize 1) result.source) := by
  intro t result
  have hcoherent : t.filter.demux.feed.Coherent :=
    coherent_run (t := start context c s) Feed.coherent_new acts
  have hchunk : t.filter.demux.chunk = Nat.max c.readChunkSize 1 :=
    chunk_run acts (start context c s)
  refine ⟨(Filter.lawful_read hcoherent).harmless, fun v => Filter.reply_eq_error_iff, ?_⟩
  intro hpass
  rw [← hchunk]
  refine Filter.asks_read ?_ hpass
  rw [hchunk]
  exact Nat.ne_of_gt (Nat.le_max_right _ 1)

/-- A stream that is opened twice and written to after that, one that is reset, one that is live
when the bytes make no sense any more, and a reset for a stream that is gone. -/
def hostile : Session ScriptedSource :=
  let piece := (Frame.opening 1 "/a" 0).bytes ++ (Frame.opening 1 "/a" 0).bytes ++
    Frame.bytes { kind := .data, flags := 1, stream := 1, payload := [0x61] } ++
    (Frame.opening 3 "/b" 0).bytes ++
    Frame.bytes { kind := .reset, flags := 0, stream := 3, payload := [7, 0, 0, 0] } ++
    Frame.bytes { kind := .reset, flags := 0, stream := 1, payload := [7, 0, 0, 0] } ++
    (Frame.opening 5 "/c" 0).bytes ++ List.replicate 20 0x58
  (start {} {} (.ofBytes piece .ok)).run [.agree .multiplexed]

theorem hostile_keeps_contracts :
    let result := hostile.filter.read ⟨.bytes, .block, 0⟩ hostile.source
    result.notices.take 3 = [.projectionFailed 1 .openedTwice, .projectionFailed 3 (.reset 7),
        .framingFailed .invalidMagic 1] ∧
      (∀ n ∈ result.notices, n.violation? = none) ∧
      result.filter.phase = .aborted .general ∧
      hostile.source.AsksUpTo 8192 result.source := by
  intro result
  obtain ⟨hnotices, -, hasks⟩ := keeps_contracts {} {} (.ofBytes _ .ok : ScriptedSource)
    [.agree .multiplexed] ⟨.bytes, .block, 0⟩
  refine ⟨?_, hnotices, ?_, hasks ?_⟩
  all_goals decide +kernel

end Session
end RequestFeed
