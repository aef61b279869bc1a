import RequestFeed.Proofs.Filter.Recorded
import RequestFeed.Proofs.Read.Content
import RequestFeed.Proofs.Read.Script
/-!
# Logged readers

A reader together with everything that it has answered. Logging changes nothing about what a reader
does, and it makes it possible to say what became of the bytes that a source has read from it.

*Step.* `Lookahead.Pulls`: the calls of the reader that one read of a source makes, with their
answers. `Lookahead.Served`: everything that one read of a source can do. Whatever the mode, the
source pulls first, and then it serves from the front of what it holds or tells why it does not.

*Results.*
* `Lookahead.Pulls.held` and `Lookahead.Pulls.keeps_closed`: pulling loses nothing, and a reader
  that has reported its end is not called again.
* `Lookahead.served_read`: every read is of this kind.
* `Lookahead.view_unlogged`: the source does the same over the reader itself.
-/

namespace RequestFeed

/-- A reader, and all that it has answered so far. -/
structure Logged (ρ : Type) where
  reader : ρ
  answers : Reader.Script := []

namespace Logged

/-- All bytes that the reader has given. -/
def given {ρ : Type} (r : Logged ρ) : Bytes := r.answers.bytes

instance {ρ : Type} [Reader ρ] : Reader (Logged ρ) where
  read n r :=
    ((Reader.read n r.reader).1,
      { reader := (Reader.read n r.reader).2
        answers := r.answers ++ [(Reader.read n r.reader).1] })
  remaining r := Reader.remaining r.reader
  length_read_le n r := Reader.length_read_le n r.reader
  length_read_add_remaining_le n r := Reader.length_read_add_remaining_le n r.reader
  remaining_le_of_error n r := Reader.remaining_le_of_error n r.reader
  remaining_lt_of_interrupted n r := Reader.remaining_lt_of_interrupted n r.reader

end Logged

namespace Lookahead

variable {ρ : Type} [Reader ρ]

/-! ### Pulling -/

/-- From the one to the other, a source has called its reader and holds what came, as long as the
reader has not reported its end. -/
inductive Pulls : Lookahead (Logged ρ) → Reader.Script → Lookahead (Logged ρ) → Prop where
  | done (s : Lookahead (Logged ρ)) : Pulls s [] s
  | gave {s t : Lookahead (Logged ρ)} {n : Nat} {bs : Bytes} {asked : Reader.Script} :
      s.ended = false → bs ≠ [] → (Reader.read n s.reader).1 = .ok bs →
      Pulls { s with reader := (Reader.read n s.reader).2, held := s.held.push bs } asked t →
      Pulls s (.ok bs :: asked) t
  | failed {s t : Lookahead (Logged ρ)} {n : Nat} {e : IoError} {aborted : Bool}
      {asked : Reader.Script} :
      s.ended = false → (Reader.read n s.reader).1 = .error e →
      Pulls { s with reader := (Reader.read n s.reader).2, aborted } asked t →
      Pulls s (.error e :: asked) t
  /-- Nothing comes after the end. -/
  | ended {s : Lookahead (Logged ρ)} {n : Nat} :
      s.ended = false → (Reader.read n s.reader).1 = .ok [] →
      Pulls s [.ok []] { s with reader := (Reader.read n s.reader).2, ended := true }

theorem answers_read (n : Nat) (r : Logged ρ) :
    (Reader.read n r).2.answers = r.answers ++ [(Reader.read n r).1] := rfl

namespace Pulls

variable {s t u : Lookahead (Logged ρ)} {asked more : Reader.Script}

/-- After its end the reader is not called. -/
theorem of_ended (h : Pulls s asked t) (he : s.ended = true) : asked = [] ∧ t = s := by
  cases h with
  | done => exact ⟨rfl, rfl⟩
  | gave hs | failed hs | ended hs => simp [he] at hs

theorem trans (h : Pulls s asked t) (k : Pulls t more u) : Pulls s (asked ++ more) u := by
  induction h with
  | done => exact k
  | gave hs hne hread _ ih => exact .gave hs hne hread (ih k)
  | failed hs hread _ ih => exact .failed hs hread (ih k)
  | ended hs hread =>
    obtain ⟨rfl, rfl⟩ := k.of_ended rfl
    exact .ended hs hread

/-- What the reader answers is logged. -/
theorem answers (h : Pulls s asked t) : t.reader.answers = s.reader.answers ++ asked := by
  induction h with
  | done => simp
  | gave _ _ hread _ ih | failed _ hread _ ih => simp [ih, answers_read, hread]
  | ended _ hread => simp [answers_read, hread]

/-- What the reader gives is held, after what was held before. -/
theorem held (h : Pulls s asked t) : t.held.bytes = s.held.bytes ++ asked.bytes := by
  induction h with
  | done => simp
  | gave _ _ _ _ ih => simp [ih]
  | failed _ _ _ ih => exact ih
  | ended => simp

end Pulls

/-- The reader has answered nothing after its end, and the source knows whether it was there. -/
structure Closed (s : Lookahead (Logged ρ)) : Prop where
  last : .ok [] ∉ s.reader.answers.dropLast
  ended : s.ended = false → .ok [] ∉ s.reader.answers

/-- A reader that has reported its end is not called again. -/
theorem Pulls.keeps_closed {s t : Lookahead (Logged ρ)} {asked : Reader.Script}
    (h : Pulls s asked t) (hs : s.Closed) : t.Closed := by
  -- an answer that is not the end may be followed by others
  have hnext {r : Logged ρ} {n : Nat} {answer : Except IoError Bytes} (hr : .ok [] ∉ r.answers)
      (hread : (Reader.read n r).1 = answer) (hne : .ok [] ≠ answer) :
      .ok [] ∉ (Reader.read n r).2.answers := by
    rw [answers_read, hread]
    simp [hr, hne]
  induction h with
  | done => exact hs
  | gave he hne hread _ ih =>
    have hlog := hnext (hs.ended he) hread (by simpa using hne.symm)
    exact ih { last := fun hmem => hlog (List.dropLast_subset _ hmem), ended := fun _ => hlog }
  | failed he hread _ ih =>
    have hlog := hnext (hs.ended he) hread (by simp)
    exact ih { last := fun hmem => hlog (List.dropLast_subset _ hmem), ended := fun _ => hlog }
  | ended he hread =>
    refine { last := ?_, ended := by simp }
    rw [answers_read, hread, List.dropLast_concat]
    exact hs.ended he

/-- What an attempt to hold more has brought. -/
def Fill.bytes : Fill → Bytes
  | .grown bs => bs
  | .ended | .failed _ => []

theorem held_pull {ρ : Type} [Reader ρ] (want : Nat) (s : Lookahead ρ) :
    (pull want s).2.held.bytes = s.held.bytes ++ (pull want s).1.bytes := by
  fun_induction pull want s with
  | case1 | case4 => simp [Fill.bytes]
  | case2 => simp [Fill.bytes]
  | case3 s e h hc ih => exact ih

theorem held_fill {ρ : Type} [Reader ρ] (want : Nat) (s : Lookahead ρ) :
    (fill want s).2.held.bytes = s.held.bytes ++ (fill want s).1.bytes := by
  rw [fill]
  split
  · simp [Fill.bytes]
  · exact held_pull _ s

/-- The last of these answers is the cause of a failure. -/
def EndsWith (code : ReadError) (asked : Reader.Script) : Prop :=
  ∃ e, asked.getLast? = some (.error e) ∧ ReadError.ofIo? e = some code

theorem EndsWith.append {code : ReadError} {asked : Reader.Script} (h : EndsWith code asked)
    (earlier : Reader.Script) : EndsWith code (earlier ++ asked) := by
  obtain ⟨e, hlast, hcode⟩ := h
  exact ⟨e, by simp [List.getLast?_append, hlast], hcode⟩

/-- To hold more, the reader is called until it answers with more than an interruption. -/
theorem pulls_pull (want : Nat) (s : Lookahead (Logged ρ)) (hs : s.ended = false) :
    ∃ asked, Pulls s asked (pull want s).2 ∧
      ∀ code, (pull want s).1 = .failed code → EndsWith code asked := by
  fun_induction pull want s with
  | case1 s h => exact ⟨[.ok []], .ended hs h, by simp⟩
  | case2 s bs hne h => exact ⟨[.ok bs], .gave hs hne h (.done _), by simp⟩
  | case3 s e h hc ih =>
    obtain ⟨asked, hpulls, hlast⟩ := ih hs
    exact ⟨.error e :: asked, .failed hs h hpulls, fun code hcode => (hlast code hcode).append [_]⟩
  | case4 s e h code hc =>
    refine ⟨[.error e], .failed hs h (.done _), fun code' hcode => ⟨e, rfl, ?_⟩⟩
    obtain rfl := Fill.failed.inj hcode
    exact hc

/-- What comes of an attempt to hold more. -/
theorem pulls_fill {want : Nat} {s : Lookahead (Logged ρ)} {outcome : Fill}
    (h : (fill want s).1 = outcome) :
    ∃ asked, Pulls s asked (fill want s).2 ∧
      (fill want s).2.held.bytes = s.held.bytes ++ outcome.bytes ∧
      ∀ code, outcome = .failed code → EndsWith code asked := by
  subst h
  have hheld := held_fill want s
  rw [fill] at hheld ⊢
  split at hheld
  next he =>
    rw [if_pos he]
    exact ⟨[], .done s, hheld, by simp⟩
  next he =>
    rw [if_neg he]
    obtain ⟨asked, hpulls, hlast⟩ :=
      pulls_pull (if want = 0 then chunk else want) s (by simpa using he)
    exact ⟨asked, hpulls, hheld, hlast⟩

/-! ### Serving -/

/-- These are bytes that a source which holds `held` can serve in answer to a request. -/
structure Portion (r : ReadRequest) (held bs : Bytes) : Prop where
  ne_nil : bs ≠ []
  front : bs <+: held
  limited : r.mode = .bytes ∨ r.mode = .speculative → bs = Bytes.limited r.limit held
  /-- A line ends with its line feed, or everything is served because none comes. -/
  line : r.mode = .line → Bytes.lineFeed ∉ bs.dropLast ∧ (Bytes.lineFeed ∉ bs → bs = held)
  rest : r.mode = .exhaustive → bs = held

/-- What a source holds when bytes have been served from the front of it. -/
def serving (r : ReadRequest) (bs : Bytes) (s : Lookahead ρ) : Lookahead ρ :=
  if r.mode.consumes then { s with held := s.held.drop bs.length } else s

/-- A read on to the end of a line or of the input has been cut short: the reader failed and said
that the end had come unexpectedly. -/
def CutShort (r : ReadRequest) (asked : Reader.Script) : Prop :=
  (r.mode = .line ∨ r.mode = .exhaustive) ∧ EndsWith .eof asked

/-- How a source answers a read, after calls of its reader with these answers. -/
inductive Served (r : ReadRequest) (s : Lookahead (Logged ρ)) :
    Reader.Script → Reply → Lookahead (Logged ρ) → Prop where
  /-- The source is only asked whether it is there. -/
  | idle : r.mode = .init → Served r s [] (Reply.ok []) s
  | delivered {t : Lookahead (Logged ρ)} {asked : Reader.Script} {bs : Bytes} :
      r.mode ≠ .init → Pulls s asked t → Portion r t.held.bytes bs →
      Served r s asked (Reply.ok bs) (t.serving r bs)
  /-- Whatever is held stays held. -/
  | refused {t : Lookahead (Logged ρ)} {asked : Reader.Script} {e : ReadError} :
      r.mode ≠ .init → Pulls s asked t →
      (e = .eof → t.held.bytes ≠ [] → CutShort r asked) →
      Served r s asked (Reply.failed e) t

variable {r : ReadRequest} {s t u : Lookahead (Logged ρ)} {asked more : Reader.Script}
  {reply : Reply}

/-- A source that has pulled and then answers a read has answered it. -/
theorem Pulls.served (h : Pulls s asked t) (hr : r.mode ≠ .init) (k : Served r t more reply u) :
    Served r s (asked ++ more) reply u := by
  cases k with
  | idle hmode => exact absurd hmode hr
  | delivered _ hpulls hportion => exact .delivered hr (h.trans hpulls) hportion
  | refused _ hpulls hcut =>
    refine .refused hr (h.trans hpulls) fun he hheld => ?_
    obtain ⟨hmode, hlast⟩ := hcut he hheld
    exact ⟨hmode, hlast.append asked⟩

/-- Some calls of the reader bring this answer about. -/
def Answered (r : ReadRequest) (s : Lookahead (Logged ρ))
    (answer : Reply × Lookahead (Logged ρ)) : Prop :=
  ∃ asked, Served r s asked answer.1 answer.2

theorem Pulls.answered {answer : Reply × Lookahead (Logged ρ)} (h : Pulls s asked t)
    (hr : r.mode ≠ .init) (k : Answered r t answer) : Answered r s answer := by
  obtain ⟨more, hserved⟩ := k
  exact ⟨asked ++ more, h.served hr hserved⟩

/-- Bytes that are held are served at once. -/
theorem Portion.answered {bs : Bytes} (h : Portion r t.held.bytes bs) (hr : r.mode ≠ .init) :
    Answered r t (Reply.ok bs, t.serving r bs) :=
  ⟨[], .delivered hr (.done t) h⟩

theorem answered_peek (hr : r.mode = .speculative) (hne : t.held.bytes ≠ []) :
    Answered r t (peek r.limit t) := by
  have hportion : Portion r t.held.bytes (Bytes.limited r.limit t.held.bytes) :=
    { ne_nil := Bytes.limited_ne_nil hne _
      front := Bytes.limited_prefix _ _
      limited := fun _ => rfl
      line := by simp [hr]
      rest := by simp [hr] }
  have hanswer := hportion.answered (by simp [hr])
  simpa [serving, hr, ReadMode.consumes, peek] using hanswer

theorem answered_serve (hr : r.mode = .bytes) (hne : t.held.bytes ≠ []) :
    Answered r t (serve r.limit t) := by
  have hportion : Portion r t.held.bytes (Bytes.limited r.limit t.held.bytes) :=
    { ne_nil := Bytes.limited_ne_nil hne _
      front := Bytes.limited_prefix _ _
      limited := fun _ => rfl
      line := by simp [hr]
      rest := by simp [hr] }
  have hanswer := hportion.answered (by simp [hr])
  simpa [serving, hr, ReadMode.consumes, serve] using hanswer

/-- A line that is held through its line feed is served. -/
theorem answered_heldLine {answer : Reply × Lookahead (Logged ρ)} (hr : r.mode = .line)
    (h : serveHeldLine? t = some answer) : Answered r t answer := by
  obtain ⟨line, hline, rfl⟩ := Option.map_eq_some_iff.mp h
  have hthrough : Bytes.through? Bytes.lineFeed t.held.bytes = some line := by
    simpa [Bytes.limited] using hline
  obtain ⟨hne, hfront⟩ := Bytes.through?_prefix hthrough
  obtain ⟨hmark, honce⟩ := Bytes.mark_of_through? hthrough
  have hportion : Portion r t.held.bytes line :=
    { ne_nil := hne
      front := hfront
      limited := by simp [hr]
      line := fun _ => ⟨honce, fun hnone => absurd hmark hnone⟩
      rest := by simp [hr] }
  have hanswer := hportion.answered (by simp [hr])
  simpa [serving, hr, ReadMode.consumes] using hanswer

theorem lineFeed_of_serveHeldLine? {ρ : Type} {t : Lookahead ρ} (h : serveHeldLine? t = none) :
    Bytes.lineFeed ∉ t.held.bytes := by
  rw [serveHeldLine?, Option.map_eq_none_iff, ByteQueue.line?_eq] at h
  exact Bytes.through?_eq_none_iff.mp h

/-- Everything that is held is served, if this has been asked for or no line ends in it. -/
theorem answered_serveAll (hne : t.held.bytes ≠ [])
    (hr : r.mode = .line ∧ Bytes.lineFeed ∉ t.held.bytes ∨ r.mode = .exhaustive) :
    Answered r t (serveAll t) := by
  have hportion : Portion r t.held.bytes t.held.bytes :=
    { ne_nil := hne
      front := List.prefix_rfl
      limited := by rcases hr with ⟨hr, -⟩ | hr <;> simp [hr]
      line := fun hline => by
        obtain ⟨-, hnone⟩ : r.mode = .line ∧ Bytes.lineFeed ∉ t.held.bytes := by
          simpa [hline] using hr
        exact ⟨fun hmem => hnone (List.dropLast_subset _ hmem), fun _ => rfl⟩
      rest := fun _ => rfl }
  have hconsumes : r.mode.consumes = true := by
    rcases hr with ⟨hr, -⟩ | hr <;> rw [hr] <;> rfl
  have hmode : r.mode ≠ .init := by rcases hr with ⟨hr, -⟩ | hr <;> simp [hr]
  have hnothing : t.held.drop t.held.bytes.length = .empty := ByteQueue.ext (by simp)
  have hanswer := hportion.answered hmode
  rwa [serving, if_pos hconsumes, hnothing] at hanswer

/-- Bytes that were held without a line feed are held on until one comes. -/
theorem answered_seekLine (hr : r.mode = .line) (s : Lookahead (Logged ρ))
    (hne : s.held.bytes ≠ []) (hnone : Bytes.lineFeed ∉ s.held.bytes) :
    Answered r s (seekLine s) := by
  have hmode : r.mode ≠ .init := by simp [hr]
  fun_induction seekLine s with
  | case1 s bs hfill hfeed =>
    obtain ⟨asked, hpulls, hheld, -⟩ := pulls_fill hfill
    refine hpulls.answered hmode ?_
    cases hline : serveHeldLine? (fill 0 s).2 with
    | some answer => exact answered_heldLine hr hline
    | none =>
      exact answered_serveAll (by simp [hheld, hne])
        (Or.inl ⟨hr, lineFeed_of_serveHeldLine? hline⟩)
  | case2 s bs hfill hfeed ih =>
    obtain ⟨asked, hpulls, hheld, -⟩ := pulls_fill hfill
    refine hpulls.answered hmode (ih ?_ ?_)
    · simp [hheld, hne]
    · simpa [hheld, hnone, Fill.bytes] using hfeed
  | case3 s hfill | case4 s hfill =>
    -- nothing has come, so what was held before is all there is
    obtain ⟨asked, hpulls, hheld, -⟩ := pulls_fill hfill
    rw [Fill.bytes, List.append_nil] at hheld
    rw [← hheld] at hne hnone
    exact hpulls.answered hmode (answered_serveAll hne (Or.inl ⟨hr, hnone⟩))
  | case5 s e he hfill =>
    obtain ⟨asked, hpulls, -, hlast⟩ := pulls_fill hfill
    exact ⟨asked, .refused hmode hpulls fun heof _ => ⟨Or.inl hr, hlast .eof (by rw [heof])⟩⟩

theorem answered_serveLine (hr : r.mode = .line) (hne : t.held.bytes ≠ []) :
    Answered r t (serveLine t) := by
  unfold serveLine
  split
  next answer h => exact answered_heldLine hr h
  next h => exact answered_seekLine hr t hne (lineFeed_of_serveHeldLine? h)

theorem answered_serveRest (hr : r.mode = .exhaustive) (s : Lookahead (Logged ρ)) :
    Answered r s (serveRest s) := by
  have hmode : r.mode ≠ .init := by simp [hr]
  have hsome {t : Lookahead (Logged ρ)} (h : t.held.isEmpty = false) : t.held.bytes ≠ [] := by
    simp [← ByteQueue.isEmpty_eq_true_iff, h]
  fun_induction serveRest s with
  | case1 s bs hfill ih =>
    obtain ⟨asked, hpulls, -⟩ := pulls_fill hfill
    exact hpulls.answered hmode ih
  | case2 s hfill hempty =>
    obtain ⟨asked, hpulls, -⟩ := pulls_fill hfill
    exact ⟨asked, .refused hmode hpulls fun _ hne =>
      absurd (ByteQueue.isEmpty_eq_true_iff.mp hempty) hne⟩
  | case3 s hfill hempty =>
    obtain ⟨asked, hpulls, -⟩ := pulls_fill hfill
    exact hpulls.answered hmode (answered_serveAll (hsome (by simpa using hempty)) (Or.inr hr))
  | case4 s e hfill hheld =>
    obtain ⟨asked, hpulls, -⟩ := pulls_fill hfill
    exact hpulls.answered hmode (answered_serveAll (hsome hheld.2) (Or.inr hr))
  | case5 s e hfill hheld =>
    obtain ⟨asked, hpulls, -, hlast⟩ := pulls_fill hfill
    exact ⟨asked, .refused hmode hpulls fun heof _ => ⟨Or.inr hr, hlast .eof (by rw [heof])⟩⟩

/-- A source that makes sure that something is held serves from it, or there is nothing. -/
theorem answered_withSome {want : Nat}
    {serve : Lookahead (Logged ρ) → Reply × Lookahead (Logged ρ)} (hr : r.mode ≠ .init)
    (hserve : ∀ t, t.held.bytes ≠ [] → Answered r t (serve t)) (s : Lookahead (Logged ρ)) :
    Answered r s (withSome want serve s) := by
  unfold withSome
  cases hempty : s.held.isEmpty with
  | false =>
    refine hserve s ?_
    simp [← ByteQueue.isEmpty_eq_true_iff, hempty]
  | true =>
    have hnone := ByteQueue.isEmpty_eq_true_iff.mp hempty
    obtain ⟨asked, hpulls, hheld, -⟩ := @pulls_fill _ _ want s _ rfl
    have hgrown (more : Bytes) (h : (fill want s).1 = .grown more) := held_ne_nil_of_fill_grown h
    rw [hnone, List.nil_append] at hheld
    generalize fill want s = filled at hpulls hheld hgrown ⊢
    obtain ⟨outcome, t⟩ := filled
    cases outcome with
    | grown more => exact hpulls.answered hr (hserve t (hgrown more rfl))
    | ended | failed => exact ⟨asked, .refused hr hpulls fun _ hne => absurd hheld hne⟩

theorem answered_read (r : ReadRequest) (s : Lookahead (Logged ρ)) : Answered r s (read r s) := by
  unfold read
  cases hr : r.mode with
  | init => exact ⟨[], .idle hr⟩
  | speculative => exact answered_withSome (by simp [hr]) (fun t => answered_peek hr) s
  | bytes => exact answered_withSome (by simp [hr]) (fun t => answered_serve hr) s
  | line => exact answered_withSome (by simp [hr]) (fun t => answered_serveLine hr) s
  | exhaustive => exact answered_serveRest hr s

/-- What the reader answers during a read. -/
def answersDuring (r : ReadRequest) (s : Lookahead (Logged ρ)) : Reader.Script :=
  (read r s).2.reader.answers.drop s.reader.answers.length

theorem Served.answers (h : Served r s asked reply t) :
    t.reader.answers = s.reader.answers ++ asked := by
  cases h with
  | idle => simp
  | delivered _ hpulls =>
    rw [← hpulls.answers, serving]
    split <;> rfl
  | refused _ hpulls => exact hpulls.answers

/-- Every read is answered in one of these ways, after the calls that have been logged. -/
theorem served_read (r : ReadRequest) (s : Lookahead (Logged ρ)) :
    Served r s (s.answersDuring r) (read r s).1 (read r s).2 := by
  obtain ⟨asked, hserved⟩ := answered_read r s
  have hasked : s.answersDuring r = asked := by rw [answersDuring, hserved.answers, List.drop_left]
  rwa [hasked]

/-! ### Logging -/

/-- The same source over the reader itself. -/
def unlogged (s : Lookahead (Logged ρ)) : Lookahead ρ :=
  { reader := s.reader.reader, held := s.held, ended := s.ended, aborted := s.aborted }

theorem pull_unlogged (want : Nat) (s : Lookahead (Logged ρ)) :
    pull want s.unlogged = ((pull want s).1, (pull want s).2.unlogged) := by
  fun_induction pull want s with
  | case1 s h =>
    have h' : (Reader.read want s.unlogged.reader).1 = .ok [] := h
    rw [pull]
    split <;> simp_all
    rfl
  | case2 s bs hne h =>
    have h' : (Reader.read want s.unlogged.reader).1 = .ok bs := h
    rw [pull]
    split <;> simp_all
    rfl
  | case3 s e h hc ih =>
    have h' : (Reader.read want s.unlogged.reader).1 = .error e := h
    rw [pull]
    split <;> simp_all
    split <;> simp_all
    exact ih
  | case4 s e h code hc =>
    have h' : (Reader.read want s.unlogged.reader).1 = .error e := h
    rw [pull]
    split <;> simp_all
    split <;> simp_all
    rfl

theorem fill_unlogged (want : Nat) (s : Lookahead (Logged ρ)) :
    fill want s.unlogged = ((fill want s).1, (fill want s).2.unlogged) := by
  rw [fill, fill, show s.unlogged.ended = s.ended from rfl]
  split
  · rfl
  · exact pull_unlogged _ s

omit [Reader ρ] in
theorem serveHeldLine?_unlogged (s : Lookahead (Logged ρ)) :
    serveHeldLine? s.unlogged =
      (serveHeldLine? s).map fun answer => (answer.1, answer.2.unlogged) := by
  rw [serveHeldLine?, serveHeldLine?, Option.map_map]
  rfl

theorem seekLine_unlogged (s : Lookahead (Logged ρ)) :
    seekLine s.unlogged = ((seekLine s).1, (seekLine s).2.unlogged) := by
  have hfill := fill_unlogged 0 s
  fun_induction seekLine s with
  | case1 s bs h hfeed =>
    rw [seekLine]
    split <;> simp_all [serveHeldLine?_unlogged]
    cases serveHeldLine? (fill 0 s).2 <;> rfl
  | case2 s bs h hfeed ih =>
    rw [seekLine]
    split <;> simp_all [fill_unlogged]
  | case3 s h | case4 s h =>
    rw [seekLine]
    split <;> simp_all
    rfl
  | case5 s e he h =>
    rw [seekLine]
    split <;> simp_all

theorem serveLine_unlogged (s : Lookahead (Logged ρ)) :
    serveLine s.unlogged = ((serveLine s).1, (serveLine s).2.unlogged) := by
  rw [serveLine, serveLine, serveHeldLine?_unlogged]
  cases serveHeldLine? s with
  | none => exact seekLine_unlogged s
  | some answer => rfl

theorem serveRest_unlogged (s : Lookahead (Logged ρ)) :
    serveRest s.unlogged = ((serveRest s).1, (serveRest s).2.unlogged) := by
  have hfill := fill_unlogged 0 s
  have hheld (t : Lookahead (Logged ρ)) : t.unlogged.held = t.held := rfl
  have hall (t : Lookahead (Logged ρ)) :
      t.unlogged.serveAll = (t.serveAll.1, t.serveAll.2.unlogged) := rfl
  fun_induction serveRest s with
  | case1 s bs h ih =>
    rw [serveRest]
    split <;> simp_all [fill_unlogged]
  | case2 s h he | case3 s h he =>
    rw [serveRest]
    split <;> simp_all
  | case4 s e h he | case5 s e h he =>
    rw [serveRest]
    split <;> simp_all

theorem withSome_unlogged (want : Nat)
    {serve : Lookahead ρ → Reply × Lookahead ρ}
    {logged : Lookahead (Logged ρ) → Reply × Lookahead (Logged ρ)}
    (h : ∀ s, serve s.unlogged = ((logged s).1, (logged s).2.unlogged))
    (s : Lookahead (Logged ρ)) :
    withSome want serve s.unlogged =
      ((withSome want logged s).1, (withSome want logged s).2.unlogged) := by
  rw [withSome, withSome, show s.unlogged.held = s.held from rfl, fill_unlogged]
  split
  · exact h s
  · generalize fill want s = filled
    obtain ⟨outcome, t⟩ := filled
    cases outcome with
    | grown => exact h t
    | ended | failed => rfl

theorem read_unlogged (r : ReadRequest) (s : Lookahead (Logged ρ)) :
    read r s.unlogged = ((read r s).1, (read r s).2.unlogged) := by
  rw [read, read]
  split
  · rfl
  · exact withSome_unlogged _ (fun _ => rfl) s
  · exact withSome_unlogged _ (fun _ => rfl) s
  · exact withSome_unlogged _ serveLine_unlogged s
  · exact serveRest_unlogged s

/-- Logging changes nothing about what a source does. -/
theorem view_unlogged : Source.View (unlogged : Lookahead (Logged ρ) → Lookahead ρ) where
  reply r s := congrArg Prod.fst (read_unlogged r s)
  source r s := congrArg Prod.snd (read_unlogged r s)
  violation _ _ := rfl
  aborted _ := rfl

end Lookahead
end RequestFeed
