import RequestFeed.Command.Disk
import RequestFeed.Proofs.Filter.Soundness
import RequestFeed.Read.Lookahead
import RequestFeed.Read.Scripted
/-!
# The content of readers

What a reader gives that never fails: the same bytes in order, in pieces of any size.

*Invariant.* `Lookahead.Serves`: what a source over such a reader has delivered, what it holds,
and what the reader has still to give make up the content.

*Results.*
* `OpenFile.gives` and `ScriptedReader.gives`: files and lists of pieces have a content.
* `Lookahead.keeps_serves` and `Lookahead.probeKeeps_serves`: the invariant is kept.
-/

namespace RequestFeed

/-- The reader gives this content, in pieces of any size, and never fails. -/
def Reader.Gives {ρ : Type} [Reader ρ] (r : ρ) (content : Bytes) : Prop :=
  ∃ Rel : ρ → Bytes → Prop, Rel r content ∧
    ∀ r content, Rel r content → ∀ n, n ≠ 0 →
      ∃ bs rest, (Reader.read n r).1 = .ok bs ∧ content = bs ++ rest ∧
        (bs = [] → content = []) ∧ Rel (Reader.read n r).2 rest

/-- What one read of a reader gives is taken out of its content. -/
theorem Reader.Gives.read {ρ : Type} [Reader ρ] {r : ρ} {content : Bytes}
    (h : Reader.Gives r content) {n : Nat} (hn : n ≠ 0) :
    ∃ bs rest, (Reader.read n r).1 = .ok bs ∧ content = bs ++ rest ∧ (bs = [] → content = []) ∧
      Reader.Gives (Reader.read n r).2 rest := by
  obtain ⟨Rel, hr, hstep⟩ := h
  obtain ⟨bs, rest, hok, hcontent, hend, hrest⟩ := hstep r content hr n hn
  exact ⟨bs, rest, hok, hcontent, hend, Rel, hrest, hstep⟩

/-- Reading ahead loses nothing, and leaves nothing buffered only at the end of a file. -/
theorem OpenFile.refill_eq (f : OpenFile) :
    f.refill.buffered ++ f.refill.unread = f.buffered ++ f.unread ∧
      (f.refill.buffered = [] → f.buffered ++ f.unread = []) ∧
      f.refill.isDirectory = f.isDirectory := by
  unfold refill
  split
  next h => simp [h, bufferSize]
  next h => exact ⟨rfl, fun hnil => absurd hnil h, rfl⟩

/-- A file gives what it contains. -/
theorem OpenFile.gives (contents : Bytes) :
    Reader.Gives ({ unread := contents } : OpenFile) contents := by
  refine ⟨fun f content => f.isDirectory = false ∧ content = f.buffered ++ f.unread,
    ⟨rfl, rfl⟩, ?_⟩
  rintro f content ⟨hd, rfl⟩ n hn
  by_cases hlarge : f.buffered = [] ∧ OpenFile.bufferSize ≤ n
  · have hread : Reader.read n f =
        (.ok (f.unread.take n), { f with unread := f.unread.drop n }) := by
      simp [Reader.read, OpenFile.read, hd, hlarge]
    rw [hread]
    refine ⟨f.unread.take n, f.unread.drop n, rfl, by simp [hlarge.1], ?_, hd, by simp [hlarge.1]⟩
    intro hnil
    simpa [hn, hlarge.1] using hnil
  · have hread : Reader.read n f =
        (.ok (f.refill.buffered.take n),
          { f.refill with buffered := f.refill.buffered.drop n }) := by
      simp [Reader.read, OpenFile.read, hd, hlarge]
    obtain ⟨hrefill, hnone, hdirectory⟩ := f.refill_eq
    rw [hread]
    refine ⟨f.refill.buffered.take n, f.refill.buffered.drop n ++ f.refill.unread, rfl, ?_, ?_,
      hdirectory.trans hd, rfl⟩
    · rw [← List.append_assoc, List.take_append_drop, hrefill]
    · intro hnil
      exact hnone (by simpa [hn] using hnil)

/-- A list of pieces, none of them empty, gives these pieces. -/
theorem ScriptedReader.gives {pieces : List Bytes} (h : ∀ piece ∈ pieces, piece ≠ []) :
    Reader.Gives (⟨pieces.map .bytes⟩ : ScriptedReader) pieces.flatten := by
  refine ⟨fun r content => ∃ pieces : List Bytes, r.script = pieces.map .bytes ∧
    (∀ piece ∈ pieces, piece ≠ []) ∧ content = pieces.flatten, ⟨pieces, rfl, h, rfl⟩, ?_⟩
  rintro ⟨_⟩ _ ⟨pieces, rfl, hne, rfl⟩ n hn
  cases pieces with
  | nil => exact ⟨[], [], rfl, rfl, fun _ => rfl, [], rfl, by simp, rfl⟩
  | cons piece pieces =>
    have hpiece := hne piece List.mem_cons_self
    have hrest := fun p hp => hne p (List.mem_cons_of_mem piece hp)
    cases hd : piece.drop n with
    | nil =>
      have hread : Reader.read n (⟨(piece :: pieces).map .bytes⟩ : ScriptedReader) =
          (.ok piece, ⟨pieces.map .bytes⟩) := by
        simp [Reader.read, ScriptedReader.read, hd]
      rw [hread]
      exact ⟨piece, pieces.flatten, rfl, rfl, fun hnil => absurd hnil hpiece, pieces, rfl, hrest,
        rfl⟩
    | cons b left =>
      have hread : Reader.read n (⟨(piece :: pieces).map .bytes⟩ : ScriptedReader) =
          (.ok (piece.take n), ⟨((b :: left) :: pieces).map .bytes⟩) := by
        simp [Reader.read, ScriptedReader.read, hd]
      rw [hread]
      refine ⟨piece.take n, (b :: left) ++ pieces.flatten, rfl, ?_, ?_, (b :: left) :: pieces,
        rfl, ?_, rfl⟩
      · rw [← hd, ← List.append_assoc, List.take_append_drop, List.flatten_cons]
      · intro hnil
        simp [hn, hpiece] at hnil
      · intro p hp
        rcases List.mem_cons.mp hp with rfl | hp
        · simp
        · exact hrest p hp

namespace Lookahead

variable {ρ : Type} [Reader ρ] {content delivered : Bytes} {last : Status} {s : Lookahead ρ}

theorem held_ne_nil_of_pull_grown {want : Nat} {more : Bytes} (h : (pull want s).1 = .grown more) :
    (pull want s).2.held.bytes ≠ [] := by
  fun_induction pull want s with
  | case1 | case4 => simp at h
  | case2 s bs hne => simpa using fun _ => hne
  | case3 s e he hc ih => exact ih h

theorem held_ne_nil_of_fill_grown {want : Nat} {more : Bytes} (h : (fill want s).1 = .grown more) :
    (fill want s).2.held.bytes ≠ [] := by
  unfold fill at h ⊢
  split at h
  · simp at h
  next he =>
    rw [if_neg he]
    exact held_ne_nil_of_pull_grown h

/-- What has been delivered, what is held and what the reader still gives make up the content. -/
structure Holds (content delivered : Bytes) (s : Lookahead ρ) : Prop where
  rest : ∃ rest, content = delivered ++ s.held.bytes ++ rest ∧ Reader.Gives s.reader rest ∧
    (s.ended = true → rest = [])
  aborted : s.aborted = false

/-- The source over a reader is one of its content; it says that the input has ended only after it
has delivered all of it. -/
def Serves (content delivered : Bytes) (last : Status) (s : Lookahead ρ) : Prop :=
  s.Holds content delivered ∧ (last = .ok ∨ last = .failed .eof ∧ delivered = content)

/-- An attempt to hold more holds more of the content, or finds that there is no more. -/
theorem fill_of_holds (want : Nat) (h : s.Holds content delivered) :
    (∃ bs, (fill want s).1 = .grown bs ∧ (fill want s).2.Holds content delivered) ∨
      (fill want s).1 = .ended ∧ content = delivered ++ s.held.bytes ∧
        (fill want s).2.Holds content delivered := by
  obtain ⟨⟨rest, hcontent, hgives, hend⟩, haborted⟩ := h
  unfold fill
  by_cases he : s.ended = true
  · right
    rw [if_pos he]
    refine ⟨rfl, ?_, ⟨rest, hcontent, hgives, hend⟩, haborted⟩
    rw [hcontent, hend he, List.append_nil]
  · rw [if_neg he]
    have hwant : (if want = 0 then chunk else want) ≠ 0 := by
      split
      · decide
      · assumption
    generalize (if want = 0 then chunk else want) = n at hwant ⊢
    obtain ⟨bs, left, hok, rfl, hnil, hleft⟩ := hgives.read hwant
    rw [pull]
    cases bs with
    | nil =>
      right
      obtain rfl : left = [] := by simpa using hnil rfl
      split
      · exact ⟨rfl, by simpa using hcontent, ⟨[], by simpa using hcontent, hleft, fun _ => rfl⟩,
          haborted⟩
      next more hne hmore =>
        rw [hok, Except.ok.injEq] at hmore
        exact absurd hmore.symm hne
      next e hmore => simp [hok] at hmore
    | cons b bs =>
      left
      split
      next hmore => simp [hok] at hmore
      next more hne hmore =>
        rw [hok, Except.ok.injEq] at hmore
        subst hmore
        refine ⟨_, rfl, ⟨left, ?_, hleft, fun hended => absurd hended he⟩, haborted⟩
        rw [hcontent]
        simp
      next e hmore => simp [hok] at hmore

/-- A source that is asked for bytes serves from what it holds, or has delivered everything. -/
theorem withSome_of_holds (want : Nat) (answer : Lookahead ρ → Reply × Lookahead ρ)
    (h : s.Holds content delivered) :
    (∃ t : Lookahead ρ, t.Holds content delivered ∧ t.held.bytes ≠ [] ∧
        withSome want answer s = answer t) ∨
      ∃ t : Lookahead ρ, t.Holds content delivered ∧ delivered = content ∧
        withSome want answer s = (Reply.failed .eof, t) := by
  unfold withSome
  cases hempty : s.held.isEmpty with
  | false =>
    left
    refine ⟨s, h, ?_, rfl⟩
    rw [Ne, ← ByteQueue.isEmpty_eq_true_iff, hempty]
    exact Bool.false_ne_true
  | true =>
    have hheld : s.held.bytes = [] := ByteQueue.isEmpty_eq_true_iff.mp hempty
    rcases fill_of_holds want h with ⟨bs, hgrown, hholds⟩ | ⟨hended, hcontent, hholds⟩
    · left
      have hne := held_ne_nil_of_fill_grown hgrown
      generalize fill want s = filled at hgrown hne hholds ⊢
      obtain ⟨_, t⟩ := filled
      subst hgrown
      exact ⟨t, hholds, hne, rfl⟩
    · right
      rw [hheld, List.append_nil] at hcontent
      generalize fill want s = filled at hended hholds ⊢
      obtain ⟨_, t⟩ := filled
      subst hended
      exact ⟨t, hholds, hcontent.symm, rfl⟩

theorem keeps_serves : Source.Keeps (Serves (ρ := ρ) content) := by
  rintro blocking n delivered last s ⟨hholds, -⟩
  have hread : Source.read ⟨.bytes, blocking, n⟩ s = withSome n (serve n) s := rfl
  rw [hread]
  rcases withSome_of_holds n (serve n) hholds with ⟨t, ht, -, heq⟩ | ⟨t, ht, hall, heq⟩
  · obtain ⟨⟨rest, hcontent, hgives, hend⟩, haborted⟩ := ht
    rw [heq]
    refine ⟨⟨⟨rest, ?_, hgives, hend⟩, haborted⟩, Or.inl rfl⟩
    have hprefix : t.held.first n <+: t.held.bytes := by
      rw [ByteQueue.first_eq]
      exact Bytes.limited_prefix n t.held.bytes
    obtain ⟨left, hleft⟩ := hprefix
    simp only [serve, Reply.ok, Brigade.bytes_ofBytes, ByteQueue.bytes_drop]
    rw [hcontent, ← hleft, List.drop_left]
    simp
  · rw [heq]
    have hnone : (Reply.failed .eof).output.bytes = [] := rfl
    rw [hnone, List.append_nil]
    exact ⟨ht, Or.inr ⟨rfl, hall⟩⟩

/-- A source that is asked which protocol was selected answers with what it holds, and says that the
input has ended only when it has delivered everything. -/
theorem read_probe_of_holds (h : s.Holds content delivered) :
    (Source.read Filter.probe s).2.Holds content delivered ∧
      (Source.read Filter.probe s).1.negotiated = none ∧
      ((Source.read Filter.probe s).1.status = .ok ∨
        (Source.read Filter.probe s).1.status = .failed .eof ∧ delivered = content) := by
  have hread : Source.read Filter.probe s = withSome 1 (peek 1) s := rfl
  rw [hread]
  rcases withSome_of_holds 1 (peek 1) h with ⟨t, ht, -, heq⟩ | ⟨t, ht, hall, heq⟩
  · rw [heq]
    exact ⟨ht, rfl, Or.inl rfl⟩
  · rw [heq]
    exact ⟨ht, rfl, Or.inr ⟨rfl, hall⟩⟩

theorem probeKeeps_serves : Filter.ProbeKeeps (Serves (ρ := ρ) content) :=
  fun _ _ _ h => ⟨(read_probe_of_holds h.1).1, h.2⟩

/-- A source over a reader that is asked for bytes and finds all well gives some. -/
theorem bytes_ne_nil_of_ok {blocking : Blocking} {n : Nat}
    (h : (Source.read ⟨.bytes, blocking, n⟩ s).1.status = .ok) :
    (Source.read ⟨.bytes, blocking, n⟩ s).1.output.bytes ≠ [] := by
  have hserve {t : Lookahead ρ} (ht : t.held.bytes ≠ []) :
      (serve n t).1.output.bytes ≠ [] := by
    simp only [serve, Reply.ok, Brigade.bytes_ofBytes, ByteQueue.first_eq]
    exact Bytes.limited_ne_nil ht n
  have hread : Source.read ⟨.bytes, blocking, n⟩ s = withSome n (serve n) s := rfl
  rw [hread] at h ⊢
  unfold withSome at h ⊢
  cases hempty : s.held.isEmpty with
  | false =>
    refine hserve ?_
    rw [Ne, ← ByteQueue.isEmpty_eq_true_iff, hempty]
    exact Bool.false_ne_true
  | true =>
    have hgrown (more : Bytes) (hg : (fill n s).1 = .grown more) := held_ne_nil_of_fill_grown hg
    simp only [hempty, Bool.not_true, Bool.false_eq_true, if_false] at h ⊢
    generalize fill n s = filled at h hgrown ⊢
    obtain ⟨outcome, t⟩ := filled
    cases outcome with
    | grown more => exact hserve (hgrown more rfl)
    | ended | failed => simp [Reply.failed] at h

end Lookahead
end RequestFeed
