import RequestFeed.Proofs.Command.Replay
import RequestFeed.Proofs.Feed.PumpRun
import RequestFeed.Proofs.Request.Volume
/-!
# Replays end

The command that prints a feed reads from its filter again and again, also when the filter says that
there is nothing right now, and it counts nothing. That it ends is a matter of what the filter
answers: over a recording every answer but the last delivers something, and a recording can be made
into no more than so many bytes.

*Invariant.* `Demultiplexer.Draws`: every pump but some has taken a byte of what the source gave.

*Results.*
* `Demultiplexer.Draws.pumpUntilReady`: of all the pumps of a read, only the last can take nothing.
* `Filter.Replays.loops`: the loop of the command ends.
* `DemuxCommand.loops_end`: and how many reads, pumps and bytes that takes.
-/

namespace RequestFeed

/-! ### Pumps -/

namespace Demultiplexer

theorem pumps_routeFrom (done : List Delivery) (told : List Notice) (d : Demultiplexer) :
    (routeFrom done told d).demux.pumps = d.pumps := by
  fun_induction routeFrom done told d with
  | case1 | case2 | case3 => rfl
  | case4 done told d f _ deliveries router _ feed notices _ ih => exact ih

section

variable {σ : Type} [Source σ] {H : Bytes → Status → σ → Prop} {taken : Bytes} {n : Nat}
  {blocking : Blocking} {d : Demultiplexer} {s : σ}

/-- A pump that makes progress has taken a byte, and no other has. -/
theorem progress_iff :
    (d.pump blocking s).progress = true ↔ (d.pump blocking s).taken ≠ [] := by
  cases hf : d.failed with
  | true => simp [pump_of_failed hf]
  | false =>
    obtain ⟨-, htaken, ⟨hnil, hp, -⟩ | ⟨hne, hp, -⟩⟩ := pump_of_not_failed blocking s hf
    · simp [hp, htaken, hnil]
    · simp [hp, htaken, hne]

theorem pumps_pump_le (blocking : Blocking) (d : Demultiplexer) (s : σ) :
    (d.pump blocking s).demux.pumps ≤ d.pumps + 1 := by
  cases hf : d.failed with
  | true =>
    rw [pump_of_failed hf]
    exact Nat.le_succ _
  | false =>
    obtain ⟨-, -, ⟨-, -, hd, -⟩ | ⟨-, -, hd, -⟩⟩ := pump_of_not_failed blocking s hf
    · rw [hd]
    · rw [hd, routeAll, pumps_routeFrom]

/-- What has been taken comes from the source, and all pumps but `n` have taken a byte of it. -/
def Draws (H : Bytes → Status → σ → Prop) (n : Nat) (d : Demultiplexer) (s : σ) : Prop :=
  ∃ taken, H (taken ++ d.input.buffer) d.input.last s ∧ d.pumps ≤ taken.length + n

omit [Source σ] in
theorem Draws.mono (h : d.Draws H n s) : d.Draws H (n + 1) s := by
  obtain ⟨taken, hsource, hpumps⟩ := h
  exact ⟨taken, hsource, Nat.le_succ_of_le hpumps⟩

theorem Draws.pump (hH : Source.Keeps H) (h : d.Draws H n s) :
    (d.pump blocking s).demux.Draws H (n + 1) (d.pump blocking s).source := by
  obtain ⟨taken, hsource, hpumps⟩ := h
  have hone := pumps_pump_le blocking d s
  refine ⟨_, pump_keeps blocking hH hsource, ?_⟩
  rw [List.length_append]
  omega

theorem Draws.pump_of_progress (hH : Source.Keeps H) (h : d.Draws H n s)
    (hp : (d.pump blocking s).progress = true) :
    (d.pump blocking s).demux.Draws H n (d.pump blocking s).source := by
  obtain ⟨taken, hsource, hpumps⟩ := h
  have hone := pumps_pump_le blocking d s
  have htook := List.length_pos_iff.mpr (progress_iff.mp hp)
  refine ⟨_, pump_keeps blocking hH hsource, ?_⟩
  rw [List.length_append]
  omega

/-- Of all the pumps of a read, only the last can take nothing. -/
theorem Draws.pumpUntilReady (blocking : Blocking) (hH : Source.Keeps H) (h : d.Draws H n s) :
    (d.pumpUntilReady blocking s).1.Draws H (n + 1) (d.pumpUntilReady blocking s).2.1 := by
  unfold Demultiplexer.pumpUntilReady
  generalize ([] : List Notice) = told
  have hprune {d : Demultiplexer} {s : σ} (h : d.Draws H n s) : d.prune.Draws H n s := h
  fun_induction pumpFrom told blocking d s with
  | case1 => exact (hprune h).mono
  | case2 told d s _ _ pumped _ hp ih => exact ih ((hprune h).pump_of_progress hH hp)
  | case3 => exact (hprune h).pump hH

end

end Demultiplexer

/-! ### Reads -/

namespace Filter

section

variable {σ : Type} {H : Bytes → Status → σ → Prop} {n : Nat} {r : ReadRequest} {reply : Reply}
  {f f' : Filter} {s s' : σ}

theorem Answers.pumps (h : Answers r f reply f') : f'.demux.pumps = f.demux.pumps := by
  cases h with
  | broken | more => rfl
  | settled _ _ _ _ hs =>
    rw [hs.frame.2.1]
    rfl

variable [Source σ]

/-- However a read is handled, at most one of its pumps takes nothing. -/
theorem Handles.draws (hH : Source.Keeps H) (hh : Handles r f s reply f' s')
    (h : f.demux.Draws H n s) : f'.demux.Draws H (n + 1) s' := by
  cases hh with
  | served _ _ _ ha =>
    obtain ⟨taken, hsource, hpumps⟩ := h.pumpUntilReady r.blocking hH
    refine ⟨taken, ?_, ?_⟩
    · rw [ha.frame.1]
      exact hsource
    · rw [ha.pumps]
      exact hpumps
  | unselected | stopped | gone | asked | ended => exact h.mono

theorem draws_approach (hP : ProbeKeeps H) (h : f.demux.Draws H n s) :
    (f.approach s).1.demux.Draws H n (f.approach s).2 := by
  rw [demux_approach]
  obtain ⟨taken, hsource, hpumps⟩ := h
  refine ⟨taken, ?_, hpumps⟩
  have hprobed := hP _ _ _ hsource
  unfold approach
  split
  · split <;> exact hprobed
  · exact hsource

theorem draws_read (hH : Source.Keeps H) (hP : ProbeKeeps H) (h : f.demux.Draws H n s)
    (r : ReadRequest) (hp : f.answering s ≠ .passThrough) :
    (f.read r s).filter.demux.Draws H (n + 1) (f.read r s).source := by
  obtain ⟨reply, -, hh⟩ := handles_read (r := r) hp
  exact hh.draws hH (draws_approach hP h)

end

section

variable {ρ : Type} [Reader ρ] {max : Nat} {content out : Bytes} {f : Filter} {s : Lookahead ρ}

/-- A replay does not pass its connection through. -/
theorem Replays.answering_ne (h : f.Replays max content out s) : f.answering s ≠ .passThrough := by
  unfold answering
  rcases h.phase with hp | ⟨hp, hm, -⟩
  · simp [approach_of_ne (f := f) (by simp [hp]) s, hp]
  · obtain ⟨taken, -, hserves, -⟩ := h.sound.traces
    obtain ⟨-, hnegotiated, hstatus⟩ := Lookahead.read_probe_of_holds hserves
    have hnote : f.note (Source.read probe s).1 = f := by simp [note, hnegotiated]
    rcases hstatus with hok | ⟨heof, -⟩
    · simp [Filter.approach, hp, hok, hnote, select, hm]
    · simp [Filter.approach, hp, heof, hnote]

end

end Filter

/-! ### The loop -/

namespace DemuxCommand

/-- The loop of the command, which reads again whenever a read went well or found nothing right now:
the answers that it got, and what is left of the filter and the source. -/
inductive Loops {σ : Type} [Source σ] (limit : Nat) : Filter → σ → List Reply → Filter → σ → Prop
  | stop {f : Filter} {s : σ} {reply : Reply} {e : ReadError}
      (hreply : (f.read ⟨.bytes, .block, limit⟩ s).reply = .ok reply)
      (hstatus : reply.status = .failed e) (he : e ≠ .wouldBlock) :
      Loops limit f s [reply] (f.read ⟨.bytes, .block, limit⟩ s).filter
        (f.read ⟨.bytes, .block, limit⟩ s).source
  | again {f f' : Filter} {s s' : σ} {reply : Reply} {replies : List Reply}
      (hreply : (f.read ⟨.bytes, .block, limit⟩ s).reply = .ok reply)
      (hstatus : reply.status = .ok ∨ reply.status = .failed .wouldBlock)
      (h : Loops limit (f.read ⟨.bytes, .block, limit⟩ s).filter
        (f.read ⟨.bytes, .block, limit⟩ s).source replies f' s') :
      Loops limit f s (reply :: replies) f' s'

/-- No read finds nothing right now, and every read that goes well delivers something. -/
def Fruitful (replies : List Reply) : Prop :=
  ∀ reply ∈ replies, reply.status ≠ .failed .wouldBlock ∧
    (reply.status = .ok → reply.output.bytes ≠ [])

/-- What it has cost to print a content. -/
structure Costs (content : Bytes) (replies : List Reply) (pumps : Nat) : Prop where
  fruitful : Fruitful replies
  volume : (replies.flatMap fun reply => reply.output.bytes).length ≤
    amplification * content.length
  reads : replies.length ≤ amplification * content.length + 1
  pumps : pumps ≤ content.length + replies.length

end DemuxCommand

open DemuxCommand

section

variable {ρ : Type} [Reader ρ] {max limit n : Nat} {content out : Bytes} {f f' : Filter}
  {s s' : Lookahead ρ} {replies : List Reply}

theorem Lookahead.Serves.length_le {delivered : Bytes} {last : Status}
    (h : Serves content delivered last s) : delivered.length ≤ content.length := by
  obtain ⟨⟨⟨rest, rfl, -⟩, -⟩, -⟩ := h
  simp only [List.length_append]
  omega

/-- A replay ends, with an error that is not that there is nothing right now. -/
theorem Replayed.ne_wouldBlock {e : ReadError} (h : Replayed max content out e) :
    e ≠ .wouldBlock := by
  cases h <;> decide

/-- The loop of the command ends, where reading to the end does. -/
theorem Filter.Replays.loops (limit : Nat) (h : f.Replays max content out s) :
    ∃ replies, Loops limit f s replies (f.readToEnd limit s).filter
        (f.readToEnd limit s).source ∧
      (f.readToEnd limit s).output = replies.map fun reply => reply.output.bytes := by
  -- as for the output: a read goes on with the replay, or is the last
  fun_induction Filter.readToEnd limit f s generalizing out with
  | case1 f s result v =>
    rename_i hv
    obtain ⟨reply, hreply, -⟩ := h.read (r := ⟨.bytes, .block, limit⟩) rfl
    rw [hv] at hreply
    cases hreply
  | case2 f s result reply hreply stop
  | case3 f s result reply hreply stop
  | case4 f s result reply hreply stop =>
    rename_i hstatus
    exact ⟨[reply], .stop hreply hstatus (by decide), rfl⟩
  | case5 f s result reply hreply stop hstatus =>
    rename_i hnone
    have hgoes := h.of_reply rfl hreply
    rw [hstatus] at hgoes
    exact absurd hnone hgoes.1
  | case6 f s result reply hreply hstatus hsome rest =>
    rename_i ih
    have hgoes := h.of_reply rfl hreply
    rw [hstatus] at hgoes
    obtain ⟨replies, hloops, houtput⟩ := ih hgoes.2
    exact ⟨reply :: replies, .again hreply (Or.inl hstatus) hloops,
      congrArg (reply.output.bytes :: ·) houtput⟩
  | case7 f s result reply hreply stop hstatus
  | case8 f s result reply hreply hstatus =>
    have hends := h.of_reply rfl hreply
    rw [hstatus] at hends
    exact absurd rfl hends.ne_wouldBlock

/-- What the reads of a loop are like, and what they have printed when it ends. -/
structure DemuxCommand.Loops.Runs (max : Nat) (content out : Bytes) (n : Nat)
    (replies : List Reply) (pumps : Nat) : Prop where
  fruitful : Fruitful replies
  printed : ∃ e, Replayed max content (out ++ replies.flatMap fun reply => reply.output.bytes) e
  reads : replies.length ≤ (replies.flatMap fun reply => reply.output.bytes).length + 1
  pumps : pumps ≤ content.length + (n + replies.length)

theorem DemuxCommand.Loops.runs (hl : Loops limit f s replies f' s')
    (h : f.Replays max content out s) (hd : f.demux.Draws (Lookahead.Serves content) n s) :
    Runs max content out n replies f'.demux.pumps := by
  induction hl generalizing out n with
  | @stop f s reply e hreply hstatus he =>
    have hends := h.of_reply rfl hreply
    rw [hstatus] at hends
    obtain ⟨taken, hserves, hpumps⟩ := Filter.draws_read Lookahead.keeps_serves
      Lookahead.probeKeeps_serves hd ⟨.bytes, .block, limit⟩ h.answering_ne
    have hlength := hserves.length_le
    rw [List.length_append] at hlength
    constructor
    · simpa [Fruitful, hstatus] using he
    · exact ⟨e, by simpa using hends⟩
    · simp
    · rw [List.length_singleton]
      omega
  | @again f f' s s' reply replies hreply hstatus _ ih =>
    have hgoes := h.of_reply rfl hreply
    rcases hstatus with hok | hwait
    · rw [hok] at hgoes
      have hrest := ih hgoes.2 (Filter.draws_read Lookahead.keeps_serves
        Lookahead.probeKeeps_serves hd ⟨.bytes, .block, limit⟩ h.answering_ne)
      obtain ⟨e, hprinted⟩ := hrest.printed
      have hsome := List.length_pos_iff.mpr hgoes.1
      have hreads := hrest.reads
      have hpumps := hrest.pumps
      constructor
      · exact List.forall_mem_cons.mpr ⟨⟨by simp [hok], fun _ => hgoes.1⟩, hrest.fruitful⟩
      · exact ⟨e, by simpa using hprinted⟩
      · rw [List.flatMap_cons, List.length_append, List.length_cons]
        omega
      · rw [List.length_cons]
        omega
    · rw [hwait] at hgoes
      exact absurd rfl hgoes.ne_wouldBlock

namespace DemuxCommand

/--
The loop of the command ends over every reader that gives a content. No read finds nothing right
now, and every read that goes well delivers something. What is printed, the number of reads and the
number of pumps have bounds that depend only on the number of bytes of the content. Every pump that
makes progress takes at least one of these bytes.
-/
theorem loops_end (c : FilterConfig) (limit : Nat) {reader : ρ}
    (h : Reader.Gives reader content) :
    (∃ replies f s,
        Loops limit (Filter.ofConfig context c) ({ reader } : Lookahead ρ) replies f s ∧
        Costs content replies f.demux.pumps ∧
        (deliver limit (Filter.ofConfig context c) ({ reader } : Lookahead ρ)).output =
          replies.map fun reply => reply.output.bytes) ∧
      ∀ (d : Demultiplexer) (s : Lookahead ρ) (blocking : Blocking) (taken : Bytes),
        Lookahead.Serves content (taken ++ d.input.buffer) d.input.last s →
        (d.pump blocking s).progress = true →
        (d.pump blocking s).taken ≠ [] ∧
          Lookahead.Serves content
            (taken ++ (d.pump blocking s).taken ++ (d.pump blocking s).demux.input.buffer)
            (d.pump blocking s).demux.input.last (d.pump blocking s).source := by
  have hreplays := Filter.replays_ofConfig c h
  have hdraws : (Filter.ofConfig context c).demux.Draws (Lookahead.Serves content) 0
      ({ reader } : Lookahead ρ) := by
    exact ⟨[], ⟨⟨⟨content, rfl, h, nofun⟩, rfl⟩, Or.inl rfl⟩, Nat.le_refl _⟩
  obtain ⟨replies, hloops, houtput⟩ := hreplays.loops limit
  have hruns := hloops.runs hreplays hdraws
  obtain ⟨e, hprinted⟩ := hruns.printed
  have hvolume : (replies.flatMap fun reply => reply.output.bytes).length ≤
      amplification * content.length :=
    Nat.le_trans hprinted.prefix_flatMap.length_le (Transcript.length_requests_le _ content)
  refine ⟨⟨replies, _, _, hloops, ?_, houtput⟩, fun d s blocking taken hserves hp => ?_⟩
  · exact
      { fruitful := hruns.fruitful
        volume := hvolume
        reads := Nat.le_trans hruns.reads (Nat.add_le_add_right hvolume 1)
        pumps := by simpa using hruns.pumps }
  · exact ⟨Demultiplexer.progress_iff.mp hp,
      Demultiplexer.pump_keeps blocking Lookahead.keeps_serves hserves⟩

/-- A request and a byte that is no frame, taken byte by byte and read byte by byte. -/
theorem byteByByte_ends :
    Reader.Gives ({ unread := (Frame.opening 1 "/a" 1).bytes ++ [0] } : OpenFile)
        ((Frame.opening 1 "/a" 1).bytes ++ [0]) ∧
      ∃ replies f s,
        Loops 1 (Filter.ofConfig context { readChunkSize := 1 })
          ({ reader := { unread := (Frame.opening 1 "/a" 1).bytes ++ [0] } } : Lookahead OpenFile)
          replies f s ∧
        Costs ((Frame.opening 1 "/a" 1).bytes ++ [0]) replies f.demux.pumps := by
  have hgives := OpenFile.gives ((Frame.opening 1 "/a" 1).bytes ++ [0])
  obtain ⟨⟨replies, f, s, hloops, hcosts, -⟩, -⟩ := loops_end { readChunkSize := 1 } 1 hgives
  exact ⟨hgives, replies, f, s, hloops, hcosts⟩

end DemuxCommand

end

end RequestFeed
