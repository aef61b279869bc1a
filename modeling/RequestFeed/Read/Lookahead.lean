import RequestFeed.ByteQueue
import RequestFeed.Read.Source
/-!
# Sources over readers

A reader becomes a source by a lookahead: what was read and not yet consumed is held and served
first. A speculative read shows held bytes without consuming them, and a line read searches them.

After the reader has reported its end once it is not called again.
-/

namespace RequestFeed

structure Lookahead (ρ : Type) where
  reader : ρ
  /-- Bytes read and not yet consumed. -/
  held : ByteQueue := .empty
  /-- The reader has reported its end. -/
  ended : Bool := false
  /-- The reader has reported that the connection is gone. -/
  aborted : Bool := false
  deriving DecidableEq, Repr

namespace Lookahead

/-- How much is read at once when nothing else is asked for. -/
def chunk : Nat := 8192

/-- How an attempt to hold more ended. -/
inductive Fill where
  /-- More is held now: these bytes. -/
  | grown (bytes : Bytes)
  | ended
  | failed (error : ReadError)
  deriving DecidableEq, Repr

/--
What is wrong with a request: when nothing is held, the reader is called for as much as the limit
says, and there must be room for that.
-/
def violation {ρ : Type} (r : ReadRequest) (s : Lookahead ρ) : Option Violation :=
  match r.mode with
  | .bytes | .speculative =>
    if s.held.isEmpty && !s.ended && Bytes.maxLength < r.limit then some .bufferTooLarge else none
  | .init | .line | .exhaustive => none

theorem violation_eq_none {ρ : Type} {r : ReadRequest} (h : r.limit ≤ Bytes.maxLength)
    (s : Lookahead ρ) : violation r s = none := by
  have : ¬ Bytes.maxLength < r.limit := Nat.not_lt.mpr h
  unfold violation
  split <;> simp [this]

section

variable {ρ : Type} [Reader ρ]

/-- Calls the reader for `want` bytes, again after every interruption. -/
def pull (want : Nat) (s : Lookahead ρ) : Fill × Lookahead ρ :=
  match _h : (Reader.read want s.reader).1 with
  | .ok [] => (.ended, { s with reader := (Reader.read want s.reader).2, ended := true })
  | .ok bs =>
    (.grown bs, { s with reader := (Reader.read want s.reader).2, held := s.held.push bs })
  | .error e =>
    match _hc : ReadError.ofIo? e with
    | none => pull want { s with reader := (Reader.read want s.reader).2 }
    | some code =>
      (.failed code,
        { s with
          reader := (Reader.read want s.reader).2
          aborted := s.aborted || code == .connAborted })
termination_by Reader.remaining s.reader
decreasing_by
  exact Reader.remaining_lt_of_interrupted want s.reader e _h (ReadError.ofIo?_eq_none_iff.mp _hc)

/-- Holds more, unless the reader is at its end. A wish of zero stands for a chunk. -/
def fill (want : Nat) (s : Lookahead ρ) : Fill × Lookahead ρ :=
  if s.ended then (.ended, s) else pull (if want = 0 then chunk else want) s

def remaining (s : Lookahead ρ) : Nat := s.held.size + Reader.remaining s.reader

/-- What happens when a reader is called: bytes move, and none are made up. -/
theorem remaining_pull_le (want : Nat) (s : Lookahead ρ) :
    (pull want s).2.remaining ≤ s.remaining := by
  fun_induction pull want s with
  | case1 s h =>
    have := Reader.length_read_add_remaining_le want s.reader [] h
    simp only [remaining, List.length_nil] at this ⊢
    omega
  | case2 s bs _ h =>
    have := Reader.length_read_add_remaining_le want s.reader bs h
    simp only [remaining, ByteQueue.size_push]
    omega
  | case3 s e h hc ih =>
    have := Reader.remaining_le_of_error want s.reader e h
    simp only [remaining] at ih ⊢
    omega
  | case4 s e h code hc =>
    have := Reader.remaining_le_of_error want s.reader e h
    simp only [remaining]
    omega

theorem remaining_fill_le (want : Nat) (s : Lookahead ρ) :
    (fill want s).2.remaining ≤ s.remaining := by
  unfold fill
  split
  · exact Nat.le_refl _
  · exact remaining_pull_le _ _

/-- An attempt that holds more has taken something from the reader. -/
theorem reader_lt_of_pull_grown {want : Nat} {s : Lookahead ρ} {more : Bytes}
    (h : (pull want s).1 = .grown more) :
    Reader.remaining (pull want s).2.reader < Reader.remaining s.reader := by
  fun_induction pull want s with
  | case1 => simp at h
  | case2 s bs hne hb =>
    have := Reader.length_read_add_remaining_le want s.reader bs hb
    have : bs.length ≠ 0 := fun h0 => hne (List.length_eq_zero_iff.mp h0)
    dsimp only
    omega
  | case3 s e he hc ih =>
    have := Reader.remaining_lt_of_interrupted want s.reader e he
      (ReadError.ofIo?_eq_none_iff.mp hc)
    have := ih h
    dsimp only at this
    omega
  | case4 => simp at h

theorem reader_lt_of_fill_grown {want : Nat} {s : Lookahead ρ} {more : Bytes}
    (h : (fill want s).1 = .grown more) :
    Reader.remaining (fill want s).2.reader < Reader.remaining s.reader := by
  unfold fill at h ⊢
  split
  · simp_all
  next hn =>
    rw [if_neg hn] at h
    exact reader_lt_of_pull_grown h

/-- Everything that is held, as an answer. -/
def serveAll (s : Lookahead ρ) : Reply × Lookahead ρ :=
  (Reply.ok s.held.bytes, { s with held := .empty })

/-- Serves the bytes through the first line feed held, if one is. -/
def serveHeldLine? (s : Lookahead ρ) : Option (Reply × Lookahead ρ) :=
  (s.held.line? 0).map fun line => (Reply.ok line, { s with held := s.held.drop line.length })

/--
Reads on until a line feed comes or nothing more does, and serves the line. None of the bytes held
before is a line feed, so only new bytes are looked at.
-/
def seekLine (s : Lookahead ρ) : Reply × Lookahead ρ :=
  match _h : (fill 0 s).1 with
  | .grown bs =>
    if bs.contains Bytes.lineFeed then
      (serveHeldLine? (fill 0 s).2).getD (serveAll (fill 0 s).2)
    else seekLine (fill 0 s).2
  | .ended | .failed .wouldBlock => serveAll (fill 0 s).2
  | .failed e => (Reply.failed e, (fill 0 s).2)
termination_by Reader.remaining s.reader
decreasing_by exact reader_lt_of_fill_grown _h

/-- Serves the bytes through the next line feed, or all there are when none comes. -/
def serveLine (s : Lookahead ρ) : Reply × Lookahead ρ :=
  match serveHeldLine? s with
  | some answer => answer
  | none => seekLine s

/-- Reads until the reader has no more and serves everything. -/
def serveRest (s : Lookahead ρ) : Reply × Lookahead ρ :=
  match _h : (fill 0 s).1 with
  | .grown _ => serveRest (fill 0 s).2
  | .ended =>
    if (fill 0 s).2.held.isEmpty then (Reply.failed .eof, (fill 0 s).2)
    else serveAll (fill 0 s).2
  | .failed e =>
    if e = .wouldBlock ∧ (fill 0 s).2.held.isEmpty = false then serveAll (fill 0 s).2
    else (Reply.failed e, (fill 0 s).2)
termination_by Reader.remaining s.reader
decreasing_by exact reader_lt_of_fill_grown _h

/-- Makes sure that something is held and serves from it. -/
def withSome (want : Nat) (serve : Lookahead ρ → Reply × Lookahead ρ) (s : Lookahead ρ) :
    Reply × Lookahead ρ :=
  if !s.held.isEmpty then serve s
  else match fill want s with
    | (.grown _, s) => serve s
    | (.ended, s) => (Reply.failed .eof, s)
    | (.failed e, s) => (Reply.failed e, s)

/-- Shows the first bytes held. -/
def peek (limit : Nat) (s : Lookahead ρ) : Reply × Lookahead ρ :=
  (Reply.ok (s.held.first limit), s)

/-- Serves the first bytes held. -/
def serve (limit : Nat) (s : Lookahead ρ) : Reply × Lookahead ρ :=
  let served := s.held.first limit
  (Reply.ok served, { s with held := s.held.drop served.length })

/-- Answers a request. Whether the reader waits is up to the reader. -/
def read (r : ReadRequest) (s : Lookahead ρ) : Reply × Lookahead ρ :=
  match r.mode with
  | .init => ({ output := [], status := .ok }, s)
  | .speculative => withSome r.limit (peek r.limit) s
  | .bytes => withSome r.limit (serve r.limit) s
  | .line => withSome 0 serveLine s
  | .exhaustive => serveRest s

theorem size_serve_add_remaining (limit : Nat) (s : Lookahead ρ) :
    Brigade.size (serve limit s).1.output + (serve limit s).2.remaining = s.remaining := by
  have := Bytes.length_limited_le limit s.held.bytes
  rw [ByteQueue.length_bytes] at this
  simp only [serve, Reply.ok, Brigade.size_eq_length_bytes, Brigade.bytes_ofBytes, remaining,
    ByteQueue.first_eq, ByteQueue.size_drop]
  omega

theorem size_withSome_serve_add_remaining_le (want limit : Nat) (s : Lookahead ρ) :
    Brigade.size (withSome want (serve limit) s).1.output +
      (withSome want (serve limit) s).2.remaining ≤ s.remaining := by
  unfold withSome
  split
  · exact Nat.le_of_eq (size_serve_add_remaining limit s)
  · have hf := remaining_fill_le want s
    split
    next t ht =>
      rw [ht] at hf
      exact Nat.le_trans (Nat.le_of_eq (size_serve_add_remaining limit t)) hf
    next t ht =>
      rw [ht] at hf
      simpa [Reply.failed, Brigade.size] using hf
    next e t ht =>
      rw [ht] at hf
      simpa [Reply.failed, Brigade.size] using hf

theorem remaining_withSome_le {want : Nat} {serve : Lookahead ρ → Reply × Lookahead ρ}
    (h : ∀ t, (serve t).2.remaining ≤ t.remaining) (s : Lookahead ρ) :
    (withSome want serve s).2.remaining ≤ s.remaining := by
  unfold withSome
  split
  · exact h s
  · have hf := remaining_fill_le want s
    split
    next t ht =>
      rw [ht] at hf
      exact Nat.le_trans (h t) hf
    next t ht =>
      rw [ht] at hf
      exact hf
    next e t ht =>
      rw [ht] at hf
      exact hf

theorem remaining_serveAll_le (s : Lookahead ρ) : (serveAll s).2.remaining ≤ s.remaining := by
  simp [serveAll, remaining]

theorem remaining_serveHeldLine_le {s : Lookahead ρ} {answer : Reply × Lookahead ρ}
    (h : serveHeldLine? s = some answer) : answer.2.remaining ≤ s.remaining := by
  simp only [serveHeldLine?, Option.map_eq_some_iff] at h
  obtain ⟨line, -, rfl⟩ := h
  simp only [remaining, ByteQueue.size_drop]
  omega

theorem remaining_seekLine_le (s : Lookahead ρ) : (seekLine s).2.remaining ≤ s.remaining := by
  fun_induction seekLine s with
  | case1 s =>
    refine Nat.le_trans ?_ (remaining_fill_le 0 s)
    cases h : serveHeldLine? (fill 0 s).2 with
    | none => exact remaining_serveAll_le _
    | some answer => exact remaining_serveHeldLine_le h
  | case2 s _ _ _ ih => exact Nat.le_trans ih (remaining_fill_le 0 s)
  | case3 s => exact Nat.le_trans (remaining_serveAll_le _) (remaining_fill_le 0 s)
  | case4 s => exact Nat.le_trans (remaining_serveAll_le _) (remaining_fill_le 0 s)
  | case5 s => exact remaining_fill_le 0 s

theorem remaining_serveLine_le (s : Lookahead ρ) : (serveLine s).2.remaining ≤ s.remaining := by
  unfold serveLine
  split
  next h => exact remaining_serveHeldLine_le h
  · exact remaining_seekLine_le s

theorem remaining_serveRest_le (s : Lookahead ρ) : (serveRest s).2.remaining ≤ s.remaining := by
  fun_induction serveRest s with
  | case1 s _ _ ih => exact Nat.le_trans ih (remaining_fill_le 0 s)
  | case2 s => exact remaining_fill_le 0 s
  | case3 s => exact Nat.le_trans (remaining_serveAll_le _) (remaining_fill_le 0 s)
  | case4 s => exact Nat.le_trans (remaining_serveAll_le _) (remaining_fill_le 0 s)
  | case5 s => exact remaining_fill_le 0 s

theorem remaining_read_le (r : ReadRequest) (s : Lookahead ρ) :
    (read r s).2.remaining ≤ s.remaining := by
  unfold read
  split
  · exact Nat.le_refl _
  · exact remaining_withSome_le (fun t => Nat.le_refl _) s
  · exact Nat.le_trans (Nat.le_add_left _ _) (size_withSome_serve_add_remaining_le _ _ s)
  · exact remaining_withSome_le remaining_serveLine_le s
  · exact remaining_serveRest_le s

instance : Source (Lookahead ρ) where
  read := read
  violation := violation
  aborted := Lookahead.aborted
  remaining := remaining
  violation_eq_none _ s h := violation_eq_none h s
  size_read_add_remaining_le r s h := by
    unfold read
    rw [h]
    exact size_withSome_serve_add_remaining_le _ _ s
  remaining_read_le := remaining_read_le

end

end Lookahead
end RequestFeed
