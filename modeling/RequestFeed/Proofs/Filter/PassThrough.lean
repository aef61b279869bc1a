import RequestFeed.Proofs.Filter.Failure
import RequestFeed.Proofs.Filter.Phases
import RequestFeed.Proofs.Read.Conservation
/-!
# Connections that are passed through

A connection that does not carry many streams is left to the consumer, who may as well read the
source itself. Every read looks into protocol selection first, by a probe, until a probe succeeds.
From then on the source gets the consumer's own requests, and the consumer gets what the source
answers.

*Specification.* `Direct`: the same source, read without a filter. A filter that waits is one whose
source gets a probe for every read (`Session.Waits`). A filter that passes its connection through is
one whose source gets every read as it is (`Session.Passes`).

*Result.* `Session.passes_through`: a session is the one and then the other, unless the connection
turns out to carry many streams; and over a reader no byte is lost or repeated on the way.
-/

namespace RequestFeed

/-- What reaches the source of an act on a filter that waits: in place of a read a probe, which
waits for one byte and leaves it there. -/
def Act.probing {σ : Type} : Act σ → Act σ
  | .read _ => .read ⟨.speculative, .block, 1⟩
  | .giveUp => .giveUp
  | .agree p => .agree p
  | .move s => .move s

/-- The request of an act, if it is a read. -/
def Act.request? {σ : Type} : Act σ → Option ReadRequest
  | .read r => some r
  | .giveUp | .agree _ | .move _ => none

/-- A call that has come from a request, if the source had room for it. -/
def Direct.call? : ReadRequest × Except Violation Reply → Option (ReadRequest × Reply)
  | (r, .ok reply) => some (r, reply)
  | (_, .error _) => none

/-- What is told of an answer that is not passed on: how it ended. -/
def Reply.withheld (reply : Reply) : Reply := { output := [], status := reply.status }

section

variable {σ : Type} [Source σ]

theorem Source.ask_probe (s : σ) :
    Source.ask Filter.probe s =
      (.ok (Source.read Filter.probe s).1, (Source.read Filter.probe s).2) :=
  Source.ask_of_room (Source.violation_eq_none Filter.probe s (by decide))

namespace Direct

/-- Every request that the source has room for has become a call, as it is. -/
theorem calls_run (acts : List (Act σ)) {d : Direct σ} {before : List (ReadRequest × Reply)}
    (h : d.source.calls = before ++ d.answers.filterMap call?) :
    (d.run acts).source.calls = before ++ (d.run acts).answers.filterMap call? := by
  induction acts generalizing d with
  | nil => exact h
  | cons a acts ih =>
    refine ih ?_
    cases a with
    | read r =>
      rw [step_read]
      cases hv : Source.violation r d.source with
      | some v => simp [Source.ask_of_violation hv, h, call?]
      | none => simp [Source.ask_of_room hv, h, call?, Source.read]
    | giveUp | agree | move => exact h

end Direct

namespace Filter

variable {r : ReadRequest} {f : Filter} {s : σ}

/-- A connection that is passed through gets the request and gives the answer. -/
theorem asks_of_answering (h : f.answering s = .passThrough) :
    (f.read r s).reply = (Source.ask r (f.approach s).2).1 ∧
      (f.read r s).filter = (f.approach s).1 ∧
      (f.read r s).source = (Source.ask r (f.approach s).2).2 := by
  obtain ⟨told, hread⟩ := read_of_answering (r := r) h
  rw [hread, passOn]
  cases hv : Source.violation r (f.approach s).2 with
  | some v => simp [Source.ask_of_violation hv]
  | none => simp [Source.ask_of_room hv]

/-- The probe has succeeded, so the filter goes on with what follows from the protocol. -/
theorem approach_of_probe_ok (hp : f.phase = .awaitingSelection)
    (h : (Source.read probe s).1.status = .ok) :
    f.approach s = ((f.note (Source.read probe s).1).select.1, (Source.read probe s).2) := by
  rw [approach, if_pos hp, h]

/-- Whoever is not known to carry many streams is passed through. -/
theorem phase_select_of_ne (h : f.context.protocol ≠ .multiplexed) :
    f.select.1.phase = .passThrough := by
  unfold select
  split
  · rfl
  · rfl
  next hm => exact absurd hm h

end Filter

namespace Session

/-- Every read is answered. -/
theorem requests_run (acts : List (Act σ)) (t : Session σ) :
    (t.run acts).answers.map Prod.fst = t.answers.map Prod.fst ++ acts.filterMap Act.request? := by
  induction acts generalizing t with
  | nil => simp
  | cons a acts ih =>
    rw [run_cons, ih]
    cases a with
    | read r => simp [step, Act.request?]
    | giveUp | agree | move => rfl

/-- Every probe has failed so far. The source has got a probe for each read, in place of it, and
the consumer has been told how the probe ended. -/
structure Waits (demux : Demultiplexer) (t : Session σ) (probed : Direct σ) : Prop where
  phase : t.filter.phase = .awaitingSelection
  source : t.source = probed.source
  answers : ∃ failed : List (ReadRequest × Reply),
    t.source.calls = failed.map (fun read => (⟨.speculative, .block, 1⟩, read.2)) ∧
      t.answers = failed.map (fun read => (read.1, .ok read.2.withheld)) ∧
      ∀ read ∈ failed, read.2.status ≠ .ok
  /-- Nothing has been pumped. -/
  demux : t.filter.demux = demux

/-- The source has got the requests of the consumer, and the consumer what it has answered. -/
structure Passes (demux : Demultiplexer) (calls : List (ReadRequest × Reply))
    (answers : List (ReadRequest × Except Violation Reply)) (t : Session σ) (own : Direct σ) :
    Prop where
  phase : t.filter.phase = .passThrough
  source : t.source = own.source
  calls : t.source.calls = calls ++ own.answers.filterMap Direct.call?
  answers : t.answers = answers ++ own.answers
  /-- Nothing has been pumped. -/
  demux : t.filter.demux = demux

variable {demux : Demultiplexer} {t : Session σ} {probed : Direct σ}

omit [Source σ] in
theorem waits_start (context : ConnectionContext) (c : FilterConfig) (s : σ) :
    (start context c s).Waits (start context c s).filter.demux { source := { source := s } } where
  phase := rfl
  source := rfl
  answers := ⟨[], rfl, rfl, by simp⟩
  demux := rfl

/-- A probe that fails leaves a filter waiting. -/
theorem Waits.probe_failed (h : t.Waits demux probed) {e : ReadError}
    (he : (Source.read Filter.probe t.source).1.status = .failed e) (r : ReadRequest) :
    (t.step (.read r)).Waits demux (probed.step (.read Filter.probe)) := by
  have hread := Filter.read_of_probe_failed (r := r) h.phase he
  obtain ⟨failed, hcalls, hanswers, hfailed⟩ := h.answers
  have hstep : t.step (.read r) =
      { filter := t.filter.note (Source.read Filter.probe t.source).1
        source := (Source.read Filter.probe t.source).2
        answers := t.answers ++ [(r, .ok (Reply.failed e))] } := by
    rw [step, hread]
  rw [hstep]
  refine { phase := ?_, source := ?_, answers := ?_, demux := ?_ }
  · rw [Filter.phase_note]
    exact h.phase
  · rw [Direct.step_read, ← h.source, Source.ask_probe]
  · refine ⟨failed ++ [(r, (Source.read Filter.probe t.source).1)], ?_, ?_, ?_⟩
    · rw [List.map_append, ← hcalls]
      rfl
    · rw [List.map_append, ← hanswers]
      simp [Reply.withheld, Reply.failed, he]
    · intro read hmem
      rcases List.mem_append.mp hmem with hmem | hmem
      · exact hfailed read hmem
      · obtain rfl := List.mem_singleton.mp hmem
        simp [he]
  · rw [Filter.demux_note]
    exact h.demux

/-- A filter goes on to wait, unless a probe succeeds. -/
theorem Waits.step (h : t.Waits demux probed) (a : Act σ) :
    (t.step a).Waits demux (probed.step a.probing) ∨
      ∃ r, a = .read r ∧ (Source.read Filter.probe t.source).1.status = .ok := by
  cases a with
  | read r =>
    cases he : (Source.read Filter.probe t.source).1.status with
    | failed e => exact Or.inl (h.probe_failed he r)
    | ok => exact Or.inr ⟨r, rfl, rfl⟩
  | giveUp | agree =>
    exact Or.inl
      { phase := h.phase, source := h.source, answers := h.answers, demux := h.demux }
  | move s =>
    refine Or.inl { phase := h.phase, source := ?_, answers := h.answers, demux := h.demux }
    simp only [Session.step, Act.probing, Direct.step, h.source]

/-- A run is one long wait, or it begins with a wait that a successful probe ends. -/
theorem Waits.run (h : t.Waits demux probed) (acts : List (Act σ)) :
    (t.run acts).Waits demux (probed.run (acts.map Act.probing)) ∨
      ∃ waiting r rest, acts = waiting ++ .read r :: rest ∧
        (t.run waiting).Waits demux (probed.run (waiting.map Act.probing)) ∧
        (Source.read Filter.probe (t.run waiting).source).1.status = .ok := by
  induction acts generalizing t probed with
  | nil => exact Or.inl h
  | cons a acts ih =>
    rcases h.step a with hwaits | ⟨r, rfl, hok⟩
    · rcases ih hwaits with hrun | ⟨waiting, r, rest, rfl, hrun, hok⟩
      · exact Or.inl hrun
      · exact Or.inr ⟨a :: waiting, r, rest, rfl, hrun, hok⟩
    · exact Or.inr ⟨[], r, acts, rfl, h, hok⟩

/-- A read that is passed on asks the source, once selection has been looked into. -/
theorem step_of_answering (h : t.filter.answering t.source = .passThrough) (r : ReadRequest) :
    t.step (.read r) =
      { filter := (t.filter.approach t.source).1
        source := (Source.ask r (t.filter.approach t.source).2).2
        answers := t.answers ++ [(r, (Source.ask r (t.filter.approach t.source).2).1)] } := by
  obtain ⟨hreply, hfilter, hsource⟩ := Filter.asks_of_answering (r := r) h
  simp only [step, hreply, hfilter, hsource]

variable {calls : List (ReadRequest × Reply)}
  {answers : List (ReadRequest × Except Violation Reply)} {own : Direct σ}

theorem Passes.approach (h : t.Passes demux calls answers own) :
    t.filter.approach t.source = (t.filter, t.source) ∧
      t.filter.answering t.source = .passThrough := by
  have hne : t.filter.phase ≠ .awaitingSelection := by simp [h.phase]
  exact ⟨Filter.approach_of_ne hne _, (Filter.answering_of_ne hne _).trans h.phase⟩

/-- A connection that is passed through is left to the consumer, whatever happens. -/
theorem Passes.step (h : t.Passes demux calls answers own) (a : Act σ) :
    (t.step a).Passes demux calls answers (own.step a) := by
  have hcalls : own.source.calls = calls ++ own.answers.filterMap Direct.call? := by
    rw [← h.source]
    exact h.calls
  cases a with
  | read r =>
    obtain ⟨happroach, hanswering⟩ := h.approach
    rw [step_of_answering hanswering, happroach, h.source]
    exact
      { phase := h.phase
        source := rfl
        calls := Direct.calls_run [.read r] hcalls
        answers := by rw [Direct.step_read, h.answers, List.append_assoc]
        demux := h.demux }
  | giveUp | agree =>
    exact
      { phase := h.phase, source := h.source, calls := h.calls, answers := h.answers
        demux := h.demux }
  | move s =>
    refine
      { phase := h.phase, source := ?_, calls := h.calls, answers := h.answers, demux := h.demux }
    simp only [Session.step, Direct.step, h.source]

theorem Passes.run (h : t.Passes demux calls answers own) (acts : List (Act σ)) :
    (t.run acts).Passes demux calls answers (own.run acts) := by
  induction acts generalizing t own with
  | nil => exact h
  | cons a acts ih => exact ih (h.step a)

/-- The read whose probe succeeds is the first that is passed on, if the connection is not known to
carry many streams. -/
theorem Waits.opens (h : t.Waits demux probed)
    (hok : (Source.read Filter.probe t.source).1.status = .ok)
    (hone : (t.filter.note (Source.read Filter.probe t.source).1).context.protocol ≠ .multiplexed)
    (r : ReadRequest) (rest : List (Act σ)) :
    (t.run (.read r :: rest)).Passes demux (Source.read Filter.probe t.source).2.calls t.answers
      (Direct.run (.read r :: rest) { source := (Source.read Filter.probe t.source).2 }) := by
  have happroach := Filter.approach_of_probe_ok h.phase hok
  have hphase : (t.filter.approach t.source).1.phase = .passThrough := by
    rw [happroach]
    exact Filter.phase_select_of_ne hone
  -- the same session with selection looked into before the read
  let opened : Session σ :=
    { filter := (t.filter.approach t.source).1
      source := (Source.read Filter.probe t.source).2
      answers := t.answers }
  have hopened : opened.Passes demux (Source.read Filter.probe t.source).2.calls t.answers
      { source := (Source.read Filter.probe t.source).2 } :=
    { phase := hphase
      source := rfl
      calls := by simp [opened]
      answers := by simp [opened]
      demux := by
        simp only [opened, happroach, Filter.demux_select, Filter.demux_note]
        exact h.demux }
  have hsame : t.step (.read r) = opened.step (.read r) := by
    obtain ⟨hidle, hanswering⟩ := hopened.approach
    rw [step_of_answering hphase, step_of_answering hanswering, hidle]
    simp only [opened, happroach]
  rw [run_cons, hsame]
  exact hopened.run (.read r :: rest)

end Session

end

/-! ### Over a reader -/

namespace Session

variable {ρ : Type} [Reader ρ] {t : Session (Lookahead (Logged ρ))}

/-- What acts bring about for a filter over a reader, one after the other. -/
def runOver (acts : List (Act ρ)) (t : Session (Lookahead (Logged ρ))) :
    Session (Lookahead (Logged ρ)) :=
  acts.foldl (fun t a => t.step (a.onReader t.source.source)) t

/-- What has been delivered and what is held make up what the reader has given, as long as the
connection is not known to carry many streams. -/
def Conserves (t : Session (Lookahead (Logged ρ))) : Prop :=
  t.filter.Demuxes ∨ t.source.source.Conserves t.consumed

/-- A probe delivers nothing, and what it has made the source read is held. -/
theorem conserves_approach (h : t.source.source.Conserves t.consumed) :
    (t.filter.approach t.source).2.source.Conserves t.consumed := by
  have hprobe := h.ask Filter.probe
  rw [Source.ask_probe] at hprobe
  have hnone (reply : Reply) : consumedBy (Filter.probe, .ok reply) = [] := by
    simp [consumedBy, Reply.consumed, Filter.probe, ReadMode.consumes]
  rw [hnone, List.append_nil] at hprobe
  unfold Filter.approach
  split
  · split <;> exact hprobe
  · exact h

theorem Conserves.read (h : t.Conserves) (r : ReadRequest) : (t.step (.read r)).Conserves := by
  rcases h with hdemuxes | hwhole
  · obtain ⟨reply, -, hh⟩ := hdemuxes.handles r t.source
    exact Or.inl (hh.demuxes hdemuxes)
  have hheld := conserves_approach hwhole
  by_cases hanswering : t.filter.answering t.source = .passThrough
  · have hask := hheld.ask r
    rw [step_of_answering hanswering]
    right
    simpa [Session.consumed] using hask
  · obtain ⟨reply, hreply, hh⟩ := Filter.handles_read (r := r) hanswering
    by_cases hwaits : (t.filter.approach t.source).1.phase = .awaitingSelection
    · right
      have hsource : (t.step (.read r)).source = (t.filter.read r t.source).source := rfl
      rw [consumed_step_read hreply, hsource]
      generalize (t.filter.read r t.source).filter = f' at hh
      generalize (t.filter.read r t.source).source = s' at hh ⊢
      cases hh with
      | unselected e => simpa [Reply.consumed, Reply.failed] using hheld
      | stopped hp | served hp | ended hp => simp [hwaits] at hp
      | gone hp | asked hp => simp [hwaits] at hp
    · exact Or.inl (hh.demuxes ⟨hwaits, hanswering⟩)

theorem Conserves.step (h : t.Conserves) (a : Act ρ) :
    (t.step (a.onReader t.source.source)).Conserves := by
  cases a with
  | read r => exact h.read r
  | giveUp | agree | move => exact h

theorem Conserves.run (h : t.Conserves) (acts : List (Act ρ)) : (t.runOver acts).Conserves := by
  induction acts generalizing t with
  | nil => exact h
  | cons a acts ih => exact ih (h.step a)

/-- A session is a wait for a probe that succeeds, in which the source gets a probe in place of
every read; and from then on, unless the connection is known to carry many streams, the source gets
the requests of the consumer and the consumer gets its answers. When the source is one over a
reader, what has been delivered and what is held make up all that the reader has given. -/
theorem passes_through {σ ρ : Type} [Source σ] [Reader ρ] (context : ConnectionContext)
    (c : FilterConfig) :
    (∀ (s : σ) (acts : List (Act σ)),
      let first := start context c s
      let bare : Direct σ := { source := { source := s } }
      (first.run acts).answers.map Prod.fst = acts.filterMap Act.request? ∧
        ((first.run acts).Waits first.filter.demux (bare.run (acts.map Act.probing)) ∨
          ∃ waiting r rest, acts = waiting ++ .read r :: rest ∧
            let t := first.run waiting
            let probe : ReadRequest := ⟨.speculative, .block, 1⟩
            let probed := Source.read probe t.source
            t.Waits first.filter.demux (bare.run (waiting.map Act.probing)) ∧
              probed.1.status = .ok ∧
              ((t.filter.note probed.1).context.protocol ≠ .multiplexed →
                let own := Direct.run (.read r :: rest) { source := probed.2 }
                (first.run acts).Passes first.filter.demux
                  (t.source.calls ++ [(probe, probed.1)]) t.answers own))) ∧
      ∀ (reader : ρ) (acts : List (Act ρ)),
        let t := (start context c (Lookahead.ofReader reader)).runOver acts
        t.filter.phase = .awaitingSelection ∨ t.filter.phase = .passThrough →
          t.consumed ++ t.source.source.held.bytes = t.source.source.reader.given := by
  refine ⟨fun s acts => ?_, fun reader acts => ?_⟩
  · refine ⟨requests_run acts _, ?_⟩
    rcases (waits_start context c s).run acts with hwaits | ⟨waiting, r, rest, rfl, hwaits, hok⟩
    · exact Or.inl hwaits
    · refine Or.inr ⟨waiting, r, rest, rfl, hwaits, hok, fun hone => ?_⟩
      have hrun : (start context c s).run (waiting ++ .read r :: rest) =
          ((start context c s).run waiting).run (.read r :: rest) := List.foldl_append
      rw [hrun]
      exact hwaits.opens hok hone r rest
  · intro t hphase
    have hstart : (start context c (Lookahead.ofReader reader)).Conserves := Or.inr rfl
    rcases hstart.run acts with hdemuxes | hwhole
    · rcases hphase with hp | hp
      · exact absurd hp hdemuxes.1
      · exact absurd hp hdemuxes.2
    · exact hwhole

/-- A reader that has nothing at first, and then two pieces. -/
def slowReader : ScriptedReader :=
  ⟨[.failure (.ofKind .wouldBlock), .bytes (Bytes.utf8 "abc"), .bytes (Bytes.utf8 "def")]⟩

/-- The first read is told to wait, the second gets the byte that its probe has seen, and the third
gets the rest without a probe. -/
theorem slowReader_passes_through :
    let r : ReadRequest := ⟨.bytes, .nonBlock, 2⟩
    let t := (start {} {} (Lookahead.ofReader slowReader)).runOver
      [.read r, .read r, .read ⟨.exhaustive, .block, 0⟩]
    t.filter.phase = .passThrough ∧
      t.consumed ++ t.source.source.held.bytes = t.source.source.reader.given ∧
      t.consumed = Bytes.utf8 "abcdef" ∧
      t.source.calls.map Prod.fst =
        [⟨.speculative, .block, 1⟩, ⟨.speculative, .block, 1⟩, r, ⟨.exhaustive, .block, 0⟩] := by
  intro r t
  have hphase : t.filter.phase = .passThrough := by decide +kernel
  have hwhole := (@passes_through ScriptedSource ScriptedReader _ _ {} {}).2 slowReader
    [.read r, .read r, .read ⟨.exhaustive, .block, 0⟩] (Or.inr hphase)
  exact ⟨hphase, hwhole, by decide +kernel, by decide +kernel⟩

end Session
end RequestFeed
