import RequestFeed.Proofs.Feed.PumpRun
/-!
# Turns

A turn is a read that takes bytes from a source, together with what the consumer was told from then
on until the next such read. Everything that happens to a filter falls into turns, so what is to
happen before the source is read again is said about one turn.

A pump takes the bytes of a turn in pieces and stops as soon as there is something to report. So
the source is read again in the middle of a read when the last piece of a turn has completed
nothing that can be delivered: the turn was in vain, and its status is forgotten before anybody is
told.

*Invariant.* `Turn.Reads`: the turns account for what the source gave, all turns but the latest are
settled, and the latest is settled as well or its bytes are being taken.

*Results.*
* `Feed.Serves.ne_of_hasData`: a feed that has bytes to deliver has not delivered everything.
* `Turn.Reads.pump_of_empty` and `Turn.Reads.pump_of_buffered`: a pump that takes bytes keeps the
  invariant.
* `Turn.Reads.pumpUntilReady`: what the latest turn is like once a pump has stopped.
-/

namespace RequestFeed

/-- A feed with bytes to deliver has not delivered everything through the first request that is
still growing. -/
theorem Feed.Serves.ne_of_hasData {f : Feed} {ps : Account} {out : Bytes} (h : f.Serves ps out)
    (hc : ps.Coherent) (hdata : f.hasData = true) :
    out ≠ ps.throughGrowing.flatMap Projection.written := by
  obtain ⟨s, rest, hs, hfailed, -, hheld⟩ := head_of_hasData hdata
  obtain ⟨gone, part, rfl, -, -, ⟨-, hall, rfl⟩ | ⟨hf, -, -⟩⟩ := h.prune hc
  · have hreq : f.prune.requests = s.projection :: rest.map Slot.projection := by
      simp [requests, hs]
    obtain ⟨later, hhead⟩ : ∃ later,
        Account.throughGrowing (Account.restore part f.prune.requests) =
          s.projection.prepend part :: later := by
      rw [hreq, Account.restore, Account.throughGrowing]
      split <;> exact ⟨_, rfl⟩
    intro heq
    have hlength := congrArg List.length heq
    rw [Account.throughGrowing_append_of_complete hall, hhead, List.flatMap_append,
      List.flatMap_cons, Projection.written_prepend] at hlength
    have hpos : 0 < s.projection.written.length := List.length_pos_iff.mpr hheld
    simp only [List.length_append] at hlength
    omega
  · rw [hfailed] at hf
    exact absurd hf Bool.false_ne_true

/-- All that these bytes let a feed deliver, as long as no failure is next in turn. -/
def Transcript.deliverable (max : Nat) (bs : Bytes) : Bytes :=
  (ofBytes max bs).requests.throughGrowing.flatMap Projection.written

/-- The answer says that there was this error. -/
def Session.SaysError (e : ReadError) : Except Violation Reply → Prop
  | .ok reply => reply.status = .failed e
  | .error _ => False

instance (e : ReadError) : DecidablePred (Session.SaysError e)
  | .ok reply => inferInstanceAs (Decidable (reply.status = .failed e))
  | .error _ => inferInstanceAs (Decidable False)

/-- A read that takes bytes from a source, and what the consumer was told from then on until the
next. -/
structure Turn where
  request : ReadRequest
  reply : Reply
  told : List (ReadRequest × Except Violation Reply) := []

namespace Turn

/-! ### Turns so far -/

/-- What the source gave in these turns. The latest turn comes first. -/
def given : List Turn → Bytes
  | [] => []
  | turn :: earlier => given earlier ++ turn.reply.output.bytes

/-- What the consumer got in these turns. -/
def got : List Turn → Bytes
  | [] => []
  | turn :: earlier => got earlier ++ turn.told.flatMap Session.consumedBy

/-- The source is read. -/
def ask (turns : List Turn) (call : ReadRequest × Reply) : List Turn :=
  { request := call.1, reply := call.2 } :: turns

/-- The consumer is told something. -/
def tell (a : ReadRequest × Except Violation Reply) : List Turn → List Turn
  | [] => []
  | turn :: earlier => { turn with told := turn.told ++ [a] } :: earlier

/-- The bytes of a read without the last piece, when pieces of `n` are taken. -/
def front (n : Nat) (bs : Bytes) : Bytes := bs.take (n * ((bs.length - 1) / n))

/-- Bytes came with the read, and the last piece of them completed nothing that can be delivered. -/
def Vain (max n : Nat) (turn : Turn) (earlier : List Turn) : Prop :=
  turn.reply.output.bytes ≠ [] ∧
    Transcript.deliverable max (given earlier ++ front n turn.reply.output.bytes) =
      Transcript.deliverable max (given (turn :: earlier))

instance (max n : Nat) (turn : Turn) (earlier : List Turn) : Decidable (turn.Vain max n earlier) :=
  inferInstanceAs (Decidable (_ ∧ _))

/-- The consumer was told of this error, once it had got all that came with it. -/
def Reports (max : Nat) (e : ReadError) (turn : Turn) (earlier : List Turn) : Prop :=
  ∃ before a after, turn.told = before ++ a :: after ∧ Session.SaysError e a.2 ∧
    got earlier ++ (before ++ [a]).flatMap Session.consumedBy =
      Transcript.deliverable max (given (turn :: earlier))

/-- The consumer was not told how the read ended. -/
def Quiet (turn : Turn) : Prop :=
  ∀ e, turn.reply.status = .failed e → ∀ a ∈ turn.told, ¬ Session.SaysError e a.2

/-- The consumer was told how the read ended. -/
def Reported (max n : Nat) (turn : Turn) (earlier : List Turn) : Prop :=
  ∀ e, turn.reply.status = .failed e → ¬ turn.Vain max n earlier ∧ turn.Reports max e earlier

/-- The consumer was told how the read ended, or the read was in vain and nobody was told. -/
def Settled (max n : Nat) (turn : Turn) (earlier : List Turn) : Prop :=
  turn.Reported max n earlier ∨ turn.Vain max n earlier ∧ turn.Quiet

/-- Nobody has been told of a turn that has just begun. -/
theorem quiet_begin (request : ReadRequest) (reply : Reply) : Quiet { request, reply } :=
  fun _ _ _ ha => absurd ha List.not_mem_nil

/-- All turns are settled. -/
def AllSettled (max n : Nat) (turns : List Turn) : Prop :=
  ∀ turn earlier, turn :: earlier <:+ turns → turn.Settled max n earlier

theorem tail_tell (a : ReadRequest × Except Violation Reply) (turns : List Turn) :
    (tell a turns).tail = turns.tail := by
  cases turns <;> rfl

theorem given_tell (a : ReadRequest × Except Violation Reply) (turns : List Turn) :
    given (tell a turns) = given turns := by
  cases turns <;> rfl

theorem got_tell (a : ReadRequest × Except Violation Reply) (turn : Turn) (earlier : List Turn) :
    got (tell a (turn :: earlier)) = got (turn :: earlier) ++ Session.consumedBy a := by
  simp [tell, got, List.append_assoc]

section

variable {max n : Nat} {turn : Turn} {earlier turns : List Turn}
  {a : ReadRequest × Except Violation Reply}

theorem AllSettled.cons (h : AllSettled max n earlier) (hturn : turn.Settled max n earlier) :
    AllSettled max n (turn :: earlier) := by
  intro turn' earlier' hsuffix
  rcases List.suffix_cons_iff.mp hsuffix with heq | hlater
  · obtain ⟨rfl, rfl⟩ := List.cons.inj heq
    exact hturn
  · exact h turn' earlier' hlater

/-- Who was told of an error stays told. -/
theorem Reported.tell (h : turn.Reported max n earlier) :
    Reported max n { turn with told := turn.told ++ [a] } earlier := by
  intro e he
  obtain ⟨hvain, before, said, after, htold, hsaid, hgot⟩ := h e he
  exact ⟨hvain, before, said, after ++ [a], by simp [htold], hsaid, hgot⟩

theorem Quiet.tell (h : turn.Quiet)
    (ha : ∀ e, turn.reply.status = .failed e → ¬ Session.SaysError e a.2) :
    Quiet { turn with told := turn.told ++ [a] } := by
  intro e he said hsaid
  rcases List.mem_append.mp hsaid with hbefore | hlast
  · exact h e he said hbefore
  · obtain rfl := List.mem_singleton.mp hlast
    exact ha e he

end

/-! ### The bytes of the latest turn -/

/-- When the last piece is being taken, the pieces before it are what has been taken. -/
theorem front_eq {n k : Nat} {bs : Bytes} (hlt : n * k < bs.length)
    (hle : bs.length ≤ n * (k + 1)) : front n bs = bs.take (n * k) := by
  have hn : 0 < n := by
    rcases Nat.eq_zero_or_pos n with rfl | hn
    · simp at hle
      simp [hle] at hlt
    · exact hn
  have hk : (bs.length - 1) / n = k := by
    refine Nat.div_eq_of_lt_le ?_ ?_
    · rw [Nat.mul_comm]
      omega
    · rw [Nat.mul_comm]
      omega
  rw [front, hk]

/-- The bytes of the turn are being taken. -/
structure Ongoing (n : Nat) (turn : Turn) (i : Input) : Prop where
  last : i.last = turn.reply.status
  quiet : turn.Quiet
  /-- Some pieces have been taken, and the last of them was not empty. -/
  cut : ∃ k, n * k < turn.reply.output.bytes.length ∧
    i.buffer = turn.reply.output.bytes.drop (n * (k + 1))

/-- What the latest turn is like while a demultiplexer pumps. -/
inductive Pumps (max n : Nat) (out : Bytes) (d : Demultiplexer) : List Turn → Prop where
  /-- It is settled, and there is nothing to deliver. -/
  | settled {turns : List Turn} :
      d.input.buffer = [] → d.feed.hasData = false → AllSettled max n turns →
      Pumps max n out d turns
  /-- Its bytes are being taken. Before the last piece was, there was nothing to deliver. -/
  | ongoing {turn : Turn} {earlier : List Turn} :
      turn.Ongoing n d.input → AllSettled max n earlier →
      (d.input.buffer = [] →
        out = Transcript.deliverable max (given earlier ++ front n turn.reply.output.bytes)) →
      Pumps max n out d (turn :: earlier)

/-- The turns account for what a demultiplexer has read that takes pieces of `n`. -/
structure Reads {σ : Type} (max n : Nat) (out : Bytes) (turns : List Turn) (d : Demultiplexer)
    (s : Recorded σ) : Prop where
  traces : d.Traces Recorded.Gave max out s
  chunk : d.chunk = n
  given : s.delivered = given turns
  pumps : Pumps max n out d turns

end Turn

namespace Input

variable {σ : Type} [Source σ]

/-- What is taken is the next piece of what is there after a refill. -/
theorem take_eq {n : Nat} (hn : n ≠ 0) (blocking : Blocking) (i : Input) (s : σ) :
    i.take n blocking s =
      ((i.refill n blocking s).1.buffer.take n,
        { (i.refill n blocking s).1 with buffer := (i.refill n blocking s).1.buffer.drop n },
        (i.refill n blocking s).2) := by
  rw [take, if_neg hn]
  dsimp only
  split
  next h => rw [h, List.take_of_length_le (List.drop_eq_nil_iff.mp h)]
  next => rfl

end Input

namespace Demultiplexer

variable {σ : Type} [Source σ] {d : Demultiplexer} {s : σ} {blocking : Blocking}

/-- A pump that makes progress has taken a piece. -/
theorem pump_of_progress (h : (d.pump blocking s).progress = true) :
    d.failed = false ∧
      (d.pump blocking s).demux.input = (d.input.take d.chunk blocking s).2.1 ∧
      (d.input.take d.chunk blocking s).1 ≠ [] := by
  cases hf : d.failed with
  | true =>
    rw [pump_of_failed hf] at h
    exact absurd h Bool.false_ne_true
  | false =>
    obtain ⟨-, -, ⟨-, hp, -⟩ | ⟨hne, -, hd, -⟩⟩ := pump_of_not_failed blocking s hf
    · rw [h] at hp
      exact absurd hp (by decide)
    · rw [hd, input_routeAll]
      exact ⟨rfl, rfl, hne⟩

/-- A pump that found nothing buffered has taken the first piece of what it was given. -/
theorem pump_of_empty (hc : d.chunk ≠ 0) (hb : d.input.buffer = [])
    (h : (d.pump blocking s).progress = true) :
    let reply := (Source.read ⟨.bytes, blocking, d.chunk⟩ s).1
    (d.pump blocking s).demux.input =
      { buffer := reply.output.bytes.drop d.chunk, last := reply.status } ∧
      reply.output.bytes ≠ [] := by
  intro reply
  obtain ⟨-, hinput, hne⟩ := pump_of_progress h
  have hrefill : (d.input.refill d.chunk blocking s).1 =
      { buffer := reply.output.bytes, last := reply.status } := by
    rw [Input.refill, if_pos hb]
  rw [Input.take_eq hc, hrefill] at hinput hne
  refine ⟨hinput, fun hnil => hne ?_⟩
  simp [hnil]

/-- A pump that found something buffered has taken the next piece of it. -/
theorem pump_of_buffered (hc : d.chunk ≠ 0) (hb : d.input.buffer ≠ [])
    (h : (d.pump blocking s).progress = true) :
    (d.pump blocking s).demux.input =
        { d.input with buffer := d.input.buffer.drop d.chunk } ∧
      (d.pump blocking s).source = s := by
  obtain ⟨hf, hinput, -⟩ := pump_of_progress h
  rw [hinput, (pump_of_not_failed blocking s hf).1, Input.take_eq hc, Input.refill, if_neg hb]
  exact ⟨rfl, rfl⟩

/-- A pump that makes no progress has failed before, or a read has given it nothing. -/
theorem pump_of_starved (hc : d.chunk ≠ 0) (hf : d.failed = false)
    (h : (d.pump blocking s).progress = false) :
    let reply := (Source.read ⟨.bytes, blocking, d.chunk⟩ s).1
    d.input.buffer = [] ∧ reply.output.bytes = [] ∧
      (d.pump blocking s).demux.input = { buffer := [], last := reply.status } := by
  intro reply
  obtain ⟨-, -, ⟨hnil, -, hd, -⟩ | ⟨-, hp, -⟩⟩ := pump_of_not_failed blocking s hf
  · obtain ⟨hbuffer, hlast, hnone⟩ := Input.take_eq_nil hc hnil
    refine ⟨?_, hnone, ?_⟩
    · rw [Input.take_eq hc, List.take_eq_nil_iff] at hnil
      have hempty := hnil.resolve_left hc
      rw [Input.refill] at hempty
      split at hempty <;> assumption
    · rw [hd]
      dsimp only
      rw [← hbuffer, ← hlast]
  · rw [h] at hp
    exact absurd hp Bool.false_ne_true

end Demultiplexer

namespace Turn

/-- A pump that finds nothing buffered reads the source. -/
theorem calls_pump_of_empty {σ : Type} [Source σ] {d : Demultiplexer} (hc : d.chunk ≠ 0)
    (hf : d.failed = false) (hb : d.input.buffer = []) (blocking : Blocking) (s : Recorded σ) :
    let request : ReadRequest := ⟨.bytes, blocking, d.chunk⟩
    (d.pump blocking s).source.calls =
      s.calls ++ [(request, (Source.read request s.source).1)] := by
  rw [Recorded.calls_pump hc, if_pos ⟨hf, hb⟩]

/-- What a read of bytes gives is given in the turn that it begins. -/
theorem delivered_ask {σ : Type} {s s' : Recorded σ} {turns : List Turn}
    {call : ReadRequest × Reply} (h : s.delivered = given turns) (hcall : call.1.mode = .bytes)
    (hcalls : s'.calls = s.calls ++ [call]) : s'.delivered = given (ask turns call) := by
  rw [Recorded.delivered, hcalls, List.flatMap_append, ← Recorded.delivered, h]
  simp [ask, given, Reply.consumed, hcall, ReadMode.consumes]

variable {σ : Type} [Source σ] {max n : Nat} {out : Bytes} {turns : List Turn}
  {d : Demultiplexer} {s : Recorded σ} {blocking : Blocking}

omit [Source σ] in
theorem Reads.prune (h : Reads max n out turns d s) : Reads max n out turns d.prune s where
  traces := h.traces.prune
  chunk := h.chunk
  given := h.given
  pumps := by
    cases h.pumps with
    | settled hb hdata hall => exact .settled hb ((Feed.hasData_prune d.feed).trans hdata) hall
    | ongoing ho hall hout => exact .ongoing ho hall hout

omit [Source σ] in
theorem Reads.chunk_ne (h : Reads max n out turns d s) : d.chunk ≠ 0 := by
  obtain ⟨taken, htells, -⟩ := h.traces
  exact htells.chunk

omit [Source σ] in
/-- With nothing to deliver and no failure next in turn, all that has been taken is delivered. -/
theorem Reads.exists_taken (h : Reads max n out turns d s) (herr : d.feed.hasError = false)
    (hdata : d.feed.hasData = false) :
    ∃ taken, taken ++ d.input.buffer = Turn.given turns ∧
      out = Transcript.deliverable max taken := by
  obtain ⟨taken, htells, hgave⟩ := h.traces
  have hidle := htells.feed.all_of_idle (Transcript.coherent_requests _) herr hdata
  exact ⟨taken, hgave.symm.trans h.given, hidle.2⟩

omit [Source σ] in
/-- When all bytes have been taken and there is nothing to deliver, the latest turn is settled. -/
theorem Reads.allSettled (h : Reads max n out turns d s) (herr : d.feed.hasError = false)
    (hdata : d.feed.hasData = false) (hb : d.input.buffer = []) : AllSettled max n turns := by
  cases hp : h.pumps with
  | settled _ _ hall => exact hall
  | @ongoing turn earlier ho hall hout =>
    obtain ⟨taken, htaken, hdelivered⟩ := h.exists_taken herr hdata
    rw [hb, List.append_nil] at htaken
    obtain ⟨k, hlt, -⟩ := ho.cut
    have hvain : turn.Vain max n earlier := by
      refine ⟨List.ne_nil_of_length_pos (by omega), ?_⟩
      rw [← hout hb, hdelivered, htaken]
    exact hall.cons (Or.inr ⟨hvain, ho.quiet⟩)

omit [Source σ] in
/-- All turns but the latest are settled. -/
theorem Pumps.settled_tail (h : Pumps max n out d turns) : AllSettled max n turns.tail := by
  cases h with
  | settled _ _ hall =>
    exact fun turn earlier hs => hall turn earlier (hs.trans turns.tail_suffix)
  | ongoing _ hall _ => exact hall

/-- A pump that finds nothing buffered begins a turn. -/
theorem Reads.pump_of_empty (h : Reads max n out turns d s) (herr : d.feed.hasError = false)
    (hdata : d.feed.hasData = false) (hb : d.input.buffer = [])
    (hp : (d.pump blocking s).progress = true) :
    let request : ReadRequest := ⟨.bytes, blocking, d.chunk⟩
    Reads max n out (ask turns (request, (Source.read request s.source).1))
      (d.pump blocking s).demux (d.pump blocking s).source := by
  intro request
  let bs : Bytes := (Source.read request s.source).1.output.bytes
  obtain ⟨hinput, hne⟩ := Demultiplexer.pump_of_empty h.chunk_ne hb hp
  have hne : 0 < bs.length := List.length_pos_iff.mpr hne
  have hbuffer : (d.pump blocking s).demux.input.buffer = bs.drop n := by
    rw [hinput, ← h.chunk]
    rfl
  obtain ⟨taken, htaken, hout⟩ := h.exists_taken herr hdata
  rw [hb, List.append_nil] at htaken
  refine ⟨h.traces.pump Recorded.keeps_gave, ?_, ?_, .ongoing ?_ ?_ ?_⟩
  · rw [Demultiplexer.chunk_pump, h.chunk]
  · have hf := (Demultiplexer.pump_of_progress hp).1
    exact delivered_ask h.given rfl (calls_pump_of_empty h.chunk_ne hf hb blocking s)
  · constructor
    · rw [hinput]
      rfl
    · exact quiet_begin _ _
    · refine ⟨0, hne, ?_⟩
      rw [hbuffer, Nat.zero_add, Nat.mul_one]
  · exact h.allSettled herr hdata hb
  · -- the first piece was the last
    intro hempty
    rw [hbuffer, List.drop_eq_nil_iff] at hempty
    have hfront : front n bs = [] := by
      rw [front_eq (k := 0) hne (by simpa using hempty), Nat.mul_zero, List.take_zero]
    rw [hout, htaken]
    exact congrArg (Transcript.deliverable max) (by simpa [ask, bs] using hfront)

/-- A pump that finds something buffered goes on with the latest turn. -/
theorem Reads.pump_of_buffered (h : Reads max n out turns d s) (herr : d.feed.hasError = false)
    (hdata : d.feed.hasData = false) (hb : d.input.buffer ≠ [])
    (hp : (d.pump blocking s).progress = true) :
    Reads max n out turns (d.pump blocking s).demux (d.pump blocking s).source := by
  obtain ⟨hinput, hsame⟩ := Demultiplexer.pump_of_buffered h.chunk_ne hb hp
  obtain ⟨taken, htaken, hout⟩ := h.exists_taken herr hdata
  refine ⟨h.traces.pump Recorded.keeps_gave, ?_, ?_, ?_⟩
  · rw [Demultiplexer.chunk_pump, h.chunk]
  · rw [hsame]
    exact h.given
  · cases hpumps : h.pumps with
    | settled hempty => exact absurd hempty hb
    | @ongoing turn earlier ho hall _ =>
      obtain ⟨k, hlt, hbuffer⟩ := ho.cut
      have hmore : n * (k + 1) < turn.reply.output.bytes.length := by
        rw [hbuffer] at hb
        exact Nat.lt_of_not_le fun hle => hb (List.drop_eq_nil_iff.mpr hle)
      have hnext : (d.pump blocking s).demux.input.buffer =
          turn.reply.output.bytes.drop (n * (k + 1 + 1)) := by
        rw [hinput, hbuffer, h.chunk, Nat.mul_succ n (k + 1), ← List.drop_drop]
      refine .ongoing { last := ?_, quiet := ho.quiet, cut := ⟨k + 1, hmore, hnext⟩ } hall ?_
      · rw [hinput]
        exact ho.last
      · -- the pieces before the last are what had been taken when nothing was left to deliver
        intro hempty
        rw [hnext, List.drop_eq_nil_iff] at hempty
        have hsplit : taken ++ d.input.buffer = Turn.given earlier ++
            turn.reply.output.bytes.take (n * (k + 1)) ++ d.input.buffer := by
          rw [htaken, Turn.given, hbuffer, List.append_assoc, List.take_append_drop]
        rw [front_eq hmore hempty, hout, List.append_cancel_right hsplit]

/-- What the latest turn is like once a pump has stopped. -/
inductive Stops (max n : Nat) (d : Demultiplexer) : List Turn → Prop where
  /-- The input has failed, or a failure is next in turn. -/
  | broken {turns : List Turn} : d.feed.hasError = true ∨ d.failed = true → Stops max n d turns
  /-- Bytes of it are still buffered, and there is something to deliver. -/
  | partly {turn : Turn} {earlier : List Turn} :
      turn.Ongoing n d.input → d.input.buffer ≠ [] → d.feed.hasData = true →
      Stops max n d (turn :: earlier)
  /-- Its bytes have been taken, and not in vain. -/
  | fully {turn : Turn} {earlier : List Turn} :
      d.input.buffer = [] → d.input.last = turn.reply.status → turn.Quiet →
      ¬ turn.Vain max n earlier → Stops max n d (turn :: earlier)

/-- What the turns are like once a pump has stopped. -/
structure Stopped {σ : Type} (max n : Nat) (turns : List Turn) (d : Demultiplexer)
    (s : Recorded σ) : Prop where
  given : s.delivered = given turns
  settled : AllSettled max n turns.tail
  stops : Stops max n d turns

omit [Source σ] in
theorem Reads.stopped_of_broken (h : Reads max n out turns d s)
    (hbroken : d.feed.hasError = true ∨ d.failed = true) : Stopped max n turns d s :=
  ⟨h.given, h.pumps.settled_tail, .broken hbroken⟩

omit [Source σ] in
/-- Where there is something to report, the latest turn is not in vain. -/
theorem Reads.stopped_of_ready (h : Reads max n out turns d s)
    (hready : d.feed.hasError = true ∨ d.feed.hasData = true) : Stopped max n turns d s := by
  rcases hready with herr | hdata
  · exact h.stopped_of_broken (Or.inl herr)
  · refine ⟨h.given, h.pumps.settled_tail, ?_⟩
    cases hp : h.pumps with
    | settled _ hnone => simp [hdata] at hnone
    | @ongoing turn earlier ho _ hout =>
      by_cases hb : d.input.buffer = []
      · refine .fully hb ho.last ho.quiet fun hvain => ?_
        obtain ⟨taken, htells, hgave⟩ := h.traces
        have htaken : taken = Turn.given (turn :: earlier) := by
          rw [← h.given, ← hgave.symm, hb, List.append_nil]
        refine htells.feed.ne_of_hasData (Transcript.coherent_requests _) hdata ?_
        rw [hout hb, hvain.2, htaken]
        rfl
      · exact .partly ho hb hdata

/-- A pump that is given nothing ends a turn at once. -/
theorem Reads.stopped_of_not_progress (h : Reads max n out turns d s)
    (herr : d.feed.hasError = false) (hdata : d.feed.hasData = false)
    (hf : d.failed = false) (hp : (d.pump blocking s).progress = false) :
    let request : ReadRequest := ⟨.bytes, blocking, d.chunk⟩
    Stopped max n (ask turns (request, (Source.read request s.source).1))
      (d.pump blocking s).demux (d.pump blocking s).source := by
  intro request
  obtain ⟨hb, hnone, hinput⟩ := Demultiplexer.pump_of_starved h.chunk_ne hf hp
  refine ⟨?_, h.allSettled herr hdata hb, .fully ?_ ?_ (quiet_begin _ _) ?_⟩
  · exact delivered_ask h.given rfl (calls_pump_of_empty h.chunk_ne hf hb blocking s)
  · rw [hinput]
  · rw [hinput]
    rfl
  · exact fun hvain => hvain.1 hnone

omit [Source σ] in
theorem isReady_prune (d : Demultiplexer) :
    d.prune.feed.isReady = (d.prune.feed.hasError || d.prune.feed.hasData) := by
  rw [Feed.hasError, Feed.hasData, Demultiplexer.prune, Feed.prune_prune]
  rfl

/-- These turns were begun from there on by reads that take bytes. -/
def Begun {σ : Type} (before : Recorded σ) (turns turns' : List Turn) (s : Recorded σ) : Prop :=
  ∃ calls, s.calls = before.calls ++ calls ∧ (∀ call ∈ calls, call.1.mode = .bytes) ∧
    turns' = calls.foldl ask turns ∧ (calls = [] → s = before)

omit [Source σ] in
theorem begun_refl (turns : List Turn) (s : Recorded σ) : Begun s turns turns s :=
  ⟨[], by simp, nofun, rfl, fun _ => rfl⟩

omit [Source σ] in
theorem Begun.ask {before s' : Recorded σ} {turns' : List Turn} (h : Begun before turns turns' s)
    {call : ReadRequest × Reply} (hcall : call.1.mode = .bytes)
    (hcalls : s'.calls = s.calls ++ [call]) : Begun before turns (ask turns' call) s' := by
  obtain ⟨calls, hbefore, hbytes, rfl, -⟩ := h
  refine ⟨calls ++ [call], ?_, ?_, ?_, fun hnil => absurd hnil (by simp)⟩
  · rw [hcalls, hbefore, List.append_assoc]
  · exact List.forall_mem_append.mpr ⟨hbytes, by simpa using hcall⟩
  · rw [List.foldl_append]
    rfl

/-- Pumping begins turns, all of them settled but perhaps the last. -/
theorem Reads.pumpUntilReady {before : Recorded σ} (blocking : Blocking)
    (h : ∃ turns', Begun before turns turns' s ∧ Reads max n out turns' d s) :
    ∃ turns', Begun before turns turns' (d.pumpUntilReady blocking s).2.1 ∧
      Stopped max n turns' (d.pumpUntilReady blocking s).1
        (d.pumpUntilReady blocking s).2.1 := by
  unfold Demultiplexer.pumpUntilReady
  generalize ([] : List Notice) = told
  fun_induction Demultiplexer.pumpFrom told blocking d s with
  | case1 told d s _ hready =>
    obtain ⟨turns', hbegun, hreads⟩ := h
    rw [isReady_prune, Bool.or_eq_true_iff] at hready
    exact ⟨turns', hbegun, hreads.prune.stopped_of_ready hready⟩
  | case2 told d s _ hready pumped _ hp ih =>
    obtain ⟨turns', hbegun, hreads⟩ := h
    have hd := hreads.prune
    rw [isReady_prune, Bool.not_eq_true, Bool.or_eq_false_iff] at hready
    refine ih ?_
    by_cases hb : d.input.buffer = []
    · have hf := (Demultiplexer.pump_of_progress hp).1
      exact ⟨_, hbegun.ask rfl (calls_pump_of_empty hd.chunk_ne hf hb blocking s),
        hd.pump_of_empty hready.1 hready.2 hb hp⟩
    · have hsame := (Demultiplexer.pump_of_buffered hd.chunk_ne hb hp).2
      refine ⟨turns', ?_, hd.pump_of_buffered hready.1 hready.2 hb hp⟩
      simp only [pumped, hsame]
      exact hbegun
  | case3 told d s _ hready pumped _ hp =>
    obtain ⟨turns', hbegun, hreads⟩ := h
    have hd := hreads.prune
    have hp : (d.prune.pump blocking s).progress = false := Bool.not_eq_true _ ▸ hp
    rw [isReady_prune, Bool.not_eq_true, Bool.or_eq_false_iff] at hready
    cases hf : d.prune.failed with
    | true =>
      simp only [pumped, Demultiplexer.pump_of_failed hf]
      exact ⟨turns', hbegun, hd.stopped_of_broken (Or.inr hf)⟩
    | false =>
      have hb := (Demultiplexer.pump_of_starved hd.chunk_ne hf hp).1
      exact ⟨_, hbegun.ask rfl (calls_pump_of_empty hd.chunk_ne hf hb blocking s),
        hd.stopped_of_not_progress hready.1 hready.2 hf hp⟩

end Turn
end RequestFeed
