import RequestFeed.Proofs.Filter.Session
import RequestFeed.Proofs.Read.Logged
/-!
# Conservation of input

What becomes of the bytes that a source reads ahead, when it is read again and again in any modes
and with any limits. The reader may change by itself between two reads, so every behaviour of a
reader is one of a run.

*Invariant.* `Lookahead.Conserves`: what has been consumed and what is held make up what the reader
has given.

*Results.*
* `Direct.conserves_run`: nothing is lost, repeated or made up, every answer fits its request, and
  the reader is left alone after its end.
* `Direct.endsEmpty_iff`: a source that says that its input has ended holds nothing any more, unless
  its reader failed with the end of the input in the middle of a line, or of a read of everything.
-/

namespace RequestFeed

/-! ### Sources without filters -/

/-- A request is made of a source that has room for it. -/
def Source.ask {σ : Type} [Source σ] (r : ReadRequest) (s : σ) : Except Violation Reply × σ :=
  match Source.violation r s with
  | some v => (.error v, s)
  | none => (.ok (Source.read r s).1, (Source.read r s).2)

section

variable {σ : Type} [Source σ] {r : ReadRequest} {s : σ}

theorem Source.ask_of_violation {v : Violation} (h : Source.violation r s = some v) :
    Source.ask r s = (.error v, s) := by
  rw [Source.ask, h]

theorem Source.ask_of_room (h : Source.violation r s = none) :
    Source.ask r s = (.ok (Source.read r s).1, (Source.read r s).2) := by
  rw [Source.ask, h]

end

/-- A source that is read without a filter, and the reads so far with their answers. -/
structure Direct (σ : Type) where
  source : Recorded σ
  answers : List (ReadRequest × Except Violation Reply) := []

namespace Direct

variable {σ : Type}

/-- All bytes that the consumer has got for good. -/
def consumed (d : Direct σ) : Bytes := d.answers.flatMap Session.consumedBy

theorem consumed_append (s : Recorded σ)
    (answers : List (ReadRequest × Except Violation Reply))
    (answer : ReadRequest × Except Violation Reply) :
    consumed ⟨s, answers ++ [answer]⟩ = consumed ⟨s, answers⟩ ++ Session.consumedBy answer := by
  simp [consumed]

variable [Source σ]

/-- What one act brings about. Nothing that is done to a filter reaches the source. -/
def step (d : Direct σ) : Act σ → Direct σ
  | .read r =>
    { source := (Source.ask r d.source).2
      answers := d.answers ++ [(r, (Source.ask r d.source).1)] }
  | .giveUp | .agree _ => d
  | .move s => { d with source := { d.source with source := s } }

theorem step_read (d : Direct σ) (r : ReadRequest) :
    d.step (.read r) =
      { source := (Source.ask r d.source).2
        answers := d.answers ++ [(r, (Source.ask r d.source).1)] } := rfl

/-- What acts bring about, one after the other. -/
def run (acts : List (Act σ)) (d : Direct σ) : Direct σ := acts.foldl step d

@[simp] theorem run_nil (d : Direct σ) : d.run [] = d := rfl

@[simp] theorem run_cons (a : Act σ) (acts : List (Act σ)) (d : Direct σ) :
    d.run (a :: acts) = (d.step a).run acts := rfl

end Direct

namespace Lookahead

variable {ρ : Type}

/-- A source over a reader that has not been called yet. -/
def ofReader (r : ρ) : Lookahead (Logged ρ) := { reader := { reader := r } }

/-- The reader has changed by itself. -/
def change (r : ρ) (s : Lookahead (Logged ρ)) : Lookahead (Logged ρ) :=
  { s with reader := { s.reader with reader := r } }

end Lookahead

/-- An act on a source over a reader. Only the reader changes by itself. -/
def Act.onReader {ρ : Type} (s : Lookahead (Logged ρ)) : Act ρ → Act (Lookahead (Logged ρ))
  | .read r => .read r
  | .giveUp => .giveUp
  | .agree p => .agree p
  | .move r => .move (s.change r)

/-- What acts bring about for a source over a reader, one after the other. -/
def Direct.runOver {ρ : Type} [Reader ρ] (acts : List (Act ρ))
    (d : Direct (Lookahead (Logged ρ))) : Direct (Lookahead (Logged ρ)) :=
  acts.foldl (fun d a => d.step (a.onReader d.source.source)) d

/-! ### What one read keeps -/

/-- An answer is one that a source over a reader may give to a request. -/
structure Reply.Fits (r : ReadRequest) (reply : Reply) : Prop where
  /-- Who only asks whether the source is there gets nothing. -/
  init : r.mode = .init → reply = Reply.ok []
  ok : r.mode ≠ .init → reply.status = .ok → ∃ bs, bs ≠ [] ∧ reply.output = [.data bs]
  failed : reply.status ≠ .ok → reply.output = []
  limited : r.limit ≠ 0 → r.mode = .bytes ∨ r.mode = .speculative →
    reply.output.bytes.length ≤ r.limit
  /-- A line feed ends the answer. -/
  line : r.mode = .line → Bytes.lineFeed ∉ reply.output.bytes.dropLast

theorem Reply.fits_failed {r : ReadRequest} (e : ReadError) (hr : r.mode ≠ .init) :
    (Reply.failed e).Fits r where
  init hinit := absurd hinit hr
  ok _ hok := by simp [Reply.failed] at hok
  failed _ := rfl
  limited _ _ := Nat.zero_le _
  line _ := by simp [Reply.failed]

namespace Lookahead

variable {ρ : Type} [Reader ρ] {r : ReadRequest} {s t : Lookahead (Logged ρ)}
  {asked : Reader.Script} {reply : Reply}

theorem Portion.fits {held bs : Bytes} (h : Portion r held bs) (hr : r.mode ≠ .init) :
    (Reply.ok bs).Fits r where
  init hinit := absurd hinit hr
  ok _ _ := ⟨bs, h.ne_nil, Brigade.ofBytes_of_ne_nil h.ne_nil⟩
  failed hfailed := absurd rfl hfailed
  limited hlimit hmode := by
    rw [Reply.ok, Brigade.bytes_ofBytes, h.limited hmode]
    exact Bytes.length_limited_le_limit hlimit held
  line hline := by
    rw [Reply.ok, Brigade.bytes_ofBytes]
    exact (h.line hline).1

theorem Served.fits (h : Served r s asked reply t) : reply.Fits r := by
  cases h with
  | idle hr =>
    exact
      { init := fun _ => rfl
        ok := fun hne => absurd hr hne
        failed := fun hne => absurd rfl hne
        limited := fun _ hmode => by simp [hr] at hmode
        line := fun hline => by simp [hr] at hline }
  | delivered hr _ hportion => exact hportion.fits hr
  | refused hr => exact Reply.fits_failed _ hr

/-- What is served is taken from what was held and from what has come. -/
theorem Served.held (h : Served r s asked reply t) :
    reply.consumed r ++ t.held.bytes = s.held.bytes ++ asked.bytes := by
  cases h with
  | idle hr => simp [Reply.consumed, hr, ReadMode.consumes]
  | refused _ hpulls => simp [Reply.consumed, Reply.failed, hpulls.held]
  | @delivered u _ bs _ hpulls hportion =>
    rw [← hpulls.held, Reply.consumed, Reply.ok, Brigade.bytes_ofBytes, serving]
    split
    · obtain ⟨rest, hrest⟩ := hportion.front
      rw [ByteQueue.bytes_drop, ← hrest, List.drop_left]
    · rfl

theorem Served.given (h : Served r s asked reply t) :
    t.reader.given = s.reader.given ++ asked.bytes := by
  rw [Logged.given, h.answers, Reader.Script.bytes_append]
  rfl

theorem Served.keeps_closed (h : Served r s asked reply t) (hs : s.Closed) : t.Closed := by
  cases h with
  | idle => exact hs
  | refused _ hpulls => exact hpulls.keeps_closed hs
  | delivered _ hpulls =>
    have hclosed := hpulls.keeps_closed hs
    rw [serving]
    split
    · exact { last := hclosed.last, ended := hclosed.ended }
    · exact hclosed

/-- What has been consumed and what is held make up what the reader has given. -/
def Conserves (consumed : Bytes) (s : Lookahead (Logged ρ)) : Prop :=
  consumed ++ s.held.bytes = s.reader.given

theorem Served.conserves {consumed : Bytes} (h : Served r s asked reply t)
    (hs : s.Conserves consumed) : t.Conserves (consumed ++ reply.consumed r) := by
  rw [Conserves, List.append_assoc, h.held, h.given, ← List.append_assoc, hs]

/-- A source that says that its input has ended holds nothing, unless the reader has failed in the
middle of a line, or of a read of everything. -/
theorem Served.held_eq_nil_iff (h : Served r s asked reply t) (hend : reply.status = .failed .eof) :
    t.held.bytes = [] ↔ ¬ (CutShort r asked ∧ (s.held.bytes ≠ [] ∨ asked.bytes ≠ [])) := by
  cases h with
  | idle | delivered => simp [Reply.ok] at hend
  | @refused _ _ e _ hpulls hcut =>
    obtain rfl : e = .eof := by simpa [Reply.failed] using hend
    have hsome : s.held.bytes ≠ [] ∨ asked.bytes ≠ [] ↔ t.held.bytes ≠ [] := by
      rw [hpulls.held]
      simp only [ne_eq, List.append_eq_nil_iff, Decidable.not_and_iff_not_or_not]
    rw [hsome]
    constructor
    · rintro hnone ⟨-, hne⟩
      exact hne hnone
    · intro hwhole
      by_cases hnone : t.held.bytes = []
      · exact hnone
      · exact absurd ⟨hcut rfl hnone, hnone⟩ hwhole

/-- A source over a reader answers a request that it has room for, or it is left as it was. -/
theorem ask_cases (r : ReadRequest) (s : Recorded (Lookahead (Logged ρ))) :
    (∃ v, Source.ask r s = (.error v, s)) ∨
      ∃ reply, (Source.ask r s).1 = .ok reply ∧
        Served r s.source (s.source.answersDuring r) reply (Source.ask r s).2.source := by
  cases hv : Source.violation r s with
  | some v => exact Or.inl ⟨v, Source.ask_of_violation hv⟩
  | none =>
    rw [Source.ask_of_room hv]
    exact Or.inr ⟨_, rfl, served_read r s.source⟩

/-- What has been consumed and what is held make up what the reader has given, also after a
request. -/
theorem Conserves.ask {s : Recorded (Lookahead (Logged ρ))} {consumed : Bytes}
    (h : s.source.Conserves consumed) (r : ReadRequest) :
    (Source.ask r s).2.source.Conserves
      (consumed ++ Session.consumedBy (r, (Source.ask r s).1)) := by
  rcases ask_cases r s with ⟨v, hask⟩ | ⟨reply, hreply, hserved⟩
  · rw [hask, Session.consumedBy, List.append_nil]
    exact h
  · rw [hreply]
    exact hserved.conserves h

/-- Bytes that are held are there for the next read. -/
theorem read_bytes_of_held {s : Lookahead (Logged ρ)} (h : s.held.bytes ≠ [])
    (blocking : Blocking) (limit : Nat) :
    (Source.read ⟨.bytes, blocking, limit⟩ s).1 = Reply.ok (Bytes.limited limit s.held.bytes) := by
  have hsome : s.held.isEmpty = false := by
    rw [← Bool.not_eq_true, ByteQueue.isEmpty_eq_true_iff]
    exact h
  simp [Source.read, read, withSome, hsome, serve]

end Lookahead

/-! ### What a run keeps -/

namespace Direct

variable {ρ : Type} [Reader ρ]

/-- A source over a reader, and what it has answered so far. -/
structure Conserves (d : Direct (Lookahead (Logged ρ))) : Prop where
  whole : d.source.source.Conserves d.consumed
  fits : ∀ r reply, (r, .ok reply) ∈ d.answers → reply.Fits r
  /-- The reader has not been called after its end. -/
  closed : d.source.source.Closed

theorem Conserves.read {d : Direct (Lookahead (Logged ρ))} (h : d.Conserves) (r : ReadRequest) :
    (d.step (.read r)).Conserves := by
  rw [step_read]
  refine { whole := ?_, fits := fun r' reply hmem => ?_, closed := ?_ }
  · rw [consumed_append]
    exact h.whole.ask r
  · rcases List.mem_append.mp hmem with hmem | hmem
    · exact h.fits r' reply hmem
    · obtain ⟨rfl, hreply⟩ : r' = r ∧ .ok reply = (Source.ask r d.source).1 := by simpa using hmem
      rcases Lookahead.ask_cases r' d.source with ⟨v, hask⟩ | ⟨reply', hreply', hserved⟩
      · simp [hask] at hreply
      · obtain rfl : reply = reply' := Except.ok.inj (hreply.trans hreply')
        exact hserved.fits
  · rcases Lookahead.ask_cases r d.source with ⟨v, hask⟩ | ⟨reply, -, hserved⟩
    · rw [hask]
      exact h.closed
    · exact hserved.keeps_closed h.closed

theorem Conserves.step {d : Direct (Lookahead (Logged ρ))} (h : d.Conserves) (a : Act ρ) :
    (d.step (a.onReader d.source.source)).Conserves := by
  cases a with
  | read r => exact h.read r
  | giveUp | agree => exact h
  | move =>
    exact
      { whole := h.whole, fits := h.fits
        closed := { last := h.closed.last, ended := h.closed.ended } }

theorem Conserves.run {d : Direct (Lookahead (Logged ρ))} (h : d.Conserves) (acts : List (Act ρ)) :
    (d.runOver acts).Conserves := by
  induction acts generalizing d with
  | nil => exact h
  | cons a acts ih => exact ih (h.step a)

/-- A source over a reader, before the first read. -/
def start (reader : ρ) : Direct (Lookahead (Logged ρ)) :=
  { source := { source := .ofReader reader } }

omit [Reader ρ] in
theorem conserves_start (reader : ρ) : (start reader).Conserves where
  whole := rfl
  fits := by simp [start]
  closed :=
    { last := by simp [start, Lookahead.ofReader]
      ended := by simp [start, Lookahead.ofReader] }

/-- Whatever a source over a reader is asked for, nothing that the reader gives is lost, repeated or
made up, every answer fits its request, and the reader is not called after its end. -/
theorem conserves_run (reader : ρ) (acts : List (Act ρ)) :
    ((start reader).runOver acts).Conserves :=
  (conserves_start reader).run acts

/-- A source over a reader that says that its input has ended: everything that the reader has given
has been consumed, unless the reader has failed with the end of the input in the middle of a line,
or of a read of everything. Then all that was there before is still held, and the next read of bytes
gets it. -/
theorem endsEmpty_iff (reader : ρ) (acts : List (Act ρ)) (r : ReadRequest) :
    let d := (start reader).runOver acts
    let s := d.source.source
    let after := d.step (.read r)
    let t := after.source.source
    Session.SaysEnd (Source.ask r d.source).1 →
      (t.held.bytes = [] ∧ after.consumed = t.reader.given ↔
        ¬ (Lookahead.CutShort r (s.answersDuring r) ∧
          (s.held.bytes ≠ [] ∨ (s.answersDuring r).bytes ≠ []))) ∧
      after.consumed ++ t.held.bytes = t.reader.given ∧
      ∀ blocking limit, t.held.bytes ≠ [] →
        (Source.read ⟨.bytes, blocking, limit⟩ t).1 =
          Reply.ok (Bytes.limited limit t.held.bytes) := by
  intro d s after t hend
  have hwhole : after.consumed ++ t.held.bytes = t.reader.given :=
    ((conserves_run reader acts).read r).whole
  refine ⟨?_, hwhole, fun blocking limit hheld => Lookahead.read_bytes_of_held hheld blocking limit⟩
  rcases Lookahead.ask_cases r d.source with ⟨v, hask⟩ | ⟨reply, hreply, hserved⟩
  · simp [hask, Session.SaysEnd] at hend
  · rw [hreply] at hend
    rw [← hserved.held_eq_nil_iff hend]
    constructor
    · exact And.left
    · intro hnone
      have hall : after.consumed = t.reader.given := by
        rw [← hwhole, show t.held.bytes = [] from hnone, List.append_nil]
      exact ⟨hnone, hall⟩

/-- Two pieces, with nothing to read for a while between them. -/
def twoPieces : ScriptedReader :=
  ⟨[.bytes (Bytes.utf8 "ab"), .failure (.ofKind .wouldBlock), .bytes (Bytes.utf8 "cd")]⟩

/-- Both pieces are delivered before the source says that the input has ended. -/
theorem twoPieces_ends_empty :
    let r : ReadRequest := ⟨.exhaustive, .block, 0⟩
    let d := (start twoPieces).runOver [.read r, .read ⟨.speculative, .block, 1⟩, .read r]
    Session.SaysEnd (Source.ask r d.source).1 ∧
      (d.step (.read r)).source.source.held.bytes = [] ∧
      (d.step (.read r)).consumed = (d.step (.read r)).source.source.reader.given := by
  intro r d
  have hend : Session.SaysEnd (Source.ask r d.source).1 := by decide +kernel
  have hquiet : (d.source.source.answersDuring r).length = 0 := by decide +kernel
  refine ⟨hend, (endsEmpty_iff twoPieces _ r hend).1.mpr ?_⟩
  rintro ⟨⟨-, e, hlast, -⟩, -⟩
  rw [List.length_eq_zero_iff.mp hquiet] at hlast
  simp at hlast

/-- A piece, and then a failure that says that the input has ended. -/
def cutShort : ScriptedReader :=
  ⟨[.bytes (Bytes.utf8 "abc"), .failure (.ofKind .unexpectedEof)]⟩

/-- The source says that the input has ended, and nothing of it has been delivered. -/
theorem cutShort_not_empty :
    let r : ReadRequest := ⟨.exhaustive, .block, 0⟩
    let d := (start cutShort).step (.read r)
    Session.SaysEnd (Source.ask r (start cutShort).source).1 ∧ d.consumed = [] ∧
      d.source.source.held.bytes = Bytes.utf8 "abc" := by
  decide +kernel

end Direct
end RequestFeed
