import Mathlib.Data.List.Forall2
import RequestFeed.Frame.Writer
import RequestFeed.Proofs.Frame.RoundTrip
/-!
# Writing to unreliable sinks

A sink may take bytes in parts of any size, ask to be tried again, or fail. What a writer has handed
to it is told by the calls of the sink with their answers, which are recorded beside the sink.

*Step.* `Hands` and `Flushes`: the calls that handing over a byte string and flushing make, with
their outcome. `Emits`: everything that writing one frame can do.

*Results.*
* `FrameWriter.emits_write`: writing a frame is of this kind, whatever the sink does and whatever is
  left over from the frame before.
* `Emits.whole`: then the sink has taken a prefix of the wire form, and the whole if all is well.
* `FrameWriter.writes_whole`: what a sink holds after any number of frames.
-/

namespace RequestFeed

/-! ### Watched sinks -/

/-- A call of a sink, with its answer. -/
inductive SinkCall where
  | write (offered : Bytes) (answer : Except IoError Nat)
  | flush (answer : Except IoError Unit)

namespace SinkCall

/-- The bytes that the sink has taken. -/
def taken : SinkCall → Bytes
  | .write offered (.ok n) => offered.take n
  | .write _ (.error _) | .flush _ => []

/-- What ends the writing of a frame before its time. -/
def fault? : SinkCall → Option FrameError
  | .write _ (.ok 0) => some .connectionClosed
  | .write _ (.ok (_ + 1)) | .flush (.ok ()) => none
  | .write _ (.error e) | .flush (.error e) => if Sink.isRetry e then none else some (.io e)

end SinkCall

/-- A sink, and all calls of it so far. -/
structure Watched (κ : Type) where
  sink : κ
  calls : List SinkCall := []

namespace Watched

/-- All bytes that the sink has taken. -/
def holds {κ : Type} (k : Watched κ) : Bytes := k.calls.flatMap SinkCall.taken

instance {κ : Type} [Sink κ] : Sink (Watched κ) where
  write bs k :=
    ((Sink.write bs k.sink).1,
      { sink := (Sink.write bs k.sink).2
        calls := k.calls ++ [.write bs (Sink.write bs k.sink).1] })
  flush k :=
    ((Sink.flush k.sink).1,
      { sink := (Sink.flush k.sink).2, calls := k.calls ++ [.flush (Sink.flush k.sink).1] })
  patience k := Sink.patience k.sink
  patience_write_le bs k := Sink.patience_write_le bs k.sink
  patience_write_lt bs k := Sink.patience_write_lt bs k.sink
  patience_flush_lt k := Sink.patience_flush_lt k.sink

end Watched

/-! ### Handing over -/

/-- A byte string is handed over. Every call offers all that is left of it, and what the sink takes
is taken from the front. -/
inductive Hands : Bytes → List SinkCall → Except FrameError Unit → Prop where
  | done : Hands [] [] (.ok ())
  | took {bs : Bytes} {n : Nat} {calls : List SinkCall} {result : Except FrameError Unit} :
      bs ≠ [] → Hands (bs.drop (n + 1)) calls result →
      Hands bs (.write bs (.ok (n + 1)) :: calls) result
  | again {bs : Bytes} {e : IoError} {calls : List SinkCall} {result : Except FrameError Unit} :
      bs ≠ [] → Sink.isRetry e → Hands bs calls result →
      Hands bs (.write bs (.error e) :: calls) result
  | closed {bs : Bytes} : bs ≠ [] → Hands bs [.write bs (.ok 0)] (.error .connectionClosed)
  | failed {bs : Bytes} {e : IoError} :
      bs ≠ [] → ¬ Sink.isRetry e → Hands bs [.write bs (.error e)] (.error (.io e))

/-- A sink is flushed, again and again as long as it asks for it. -/
inductive Flushes : List SinkCall → Except FrameError Unit → Prop where
  | done : Flushes [.flush (.ok ())] (.ok ())
  | again {e : IoError} {calls : List SinkCall} {result : Except FrameError Unit} :
      Sink.isRetry e → Flushes calls result → Flushes (.flush (.error e) :: calls) result
  | failed {e : IoError} : ¬ Sink.isRetry e → Flushes [.flush (.error e)] (.error (.io e))

namespace Sink

variable {κ : Type} [Sink κ]

theorem calls_write (bs : Bytes) (k : Watched κ) :
    (write bs k).2.calls = k.calls ++ [.write bs (write bs k).1] := rfl

theorem calls_flush (k : Watched κ) : (flush k).2.calls = k.calls ++ [.flush (flush k).1] := rfl

/-- What a buffer holds from an offset on is handed over. -/
theorem hands_writeFrom (buffer : Bytes) (offset : Nat) (k : Watched κ) :
    ∃ calls, Hands (buffer.drop offset) calls (writeFrom buffer offset k).1 ∧
      (writeFrom buffer offset k).2.calls = k.calls ++ calls := by
  have hleft {offset : Nat} (ho : offset < buffer.length) : buffer.drop offset ≠ [] := by
    simpa using ho
  have hmore {k : Watched κ} {bs : Bytes} {answer : Except IoError Nat} {calls : List SinkCall}
      (h : (write bs k).1 = answer) :
      (write bs k).2.calls ++ calls = k.calls ++ .write bs answer :: calls := by
    rw [calls_write, h, List.append_assoc, List.singleton_append]
  -- the buffer stays as it is; what is handed over in each round is the rest of it
  fun_induction writeFrom buffer offset k with
  | case1 offset k ho h =>
    refine ⟨_, .closed (hleft ho), ?_⟩
    rw [calls_write, h]
  | case2 offset k ho n h ih =>
    obtain ⟨calls, hhands, hcalls⟩ := ih
    rw [← List.drop_drop] at hhands
    exact ⟨_, .took (hleft ho) hhands, by rw [hcalls, hmore h]⟩
  | case3 offset k ho e h hr ih =>
    obtain ⟨calls, hhands, hcalls⟩ := ih
    exact ⟨_, .again (hleft ho) hr hhands, by rw [hcalls, hmore h]⟩
  | case4 offset k ho e h hr =>
    refine ⟨_, .failed (hleft ho) hr, ?_⟩
    rw [calls_write, h]
  | case5 offset k ho =>
    rw [List.drop_of_length_le (Nat.not_lt.mp ho)]
    exact ⟨[], .done, by rw [List.append_nil]⟩

theorem flushes_flushAll (k : Watched κ) :
    ∃ calls, Flushes calls (flushAll k).1 ∧ (flushAll k).2.calls = k.calls ++ calls := by
  fun_induction flushAll k with
  | case1 k h => exact ⟨_, .done, by rw [calls_flush, h]⟩
  | case2 k e h hr ih =>
    obtain ⟨calls, hflushes, hcalls⟩ := ih
    refine ⟨_, .again hr hflushes, ?_⟩
    rw [hcalls, calls_flush, h, List.append_assoc, List.singleton_append]
  | case3 k e h hr => exact ⟨_, .failed hr, by rw [calls_flush, h]⟩

end Sink

/-! ### Writing a frame -/

/-- The calls of a sink that writing a frame makes, with the outcome. -/
inductive Emits (max : Nat) (f : Frame) : List SinkCall → Except FrameError Unit → Prop where
  /-- The payload is too long for the writer, and the sink is not called. -/
  | refused : max < f.payload.length →
      Emits max f [] (.error (.payloadTooLarge f.payload.length max))
  /-- The frame has no wire form, and the sink is not called. -/
  | unencodable {e : FrameError} : f.payload.length ≤ max → f.encode = .error e →
      Emits max f [] (.error e)
  | cut {bs : Bytes} {calls : List SinkCall} {e : FrameError} : f.payload.length ≤ max →
      f.encode = .ok bs → Hands bs calls (.error e) → Emits max f calls (.error e)
  | handed {bs : Bytes} {writes flushes : List SinkCall} {result : Except FrameError Unit} :
      f.payload.length ≤ max → f.encode = .ok bs → Hands bs writes (.ok ()) →
      Flushes flushes result → Emits max f (writes ++ flushes) result

namespace FrameWriter

variable {κ : Type} [Sink κ]

/-- What has been put together is handed over, and then the sink is flushed. -/
theorem send_eq (w : FrameWriter (Watched κ)) :
    ∃ calls, (w.send.2.sink.calls = w.sink.calls ++ calls ∧ w.send.2.maxPayload = w.maxPayload) ∧
      ((∃ e, Hands w.scratch calls (.error e) ∧ w.send.1 = .error e) ∨
        ∃ writes flushes, calls = writes ++ flushes ∧ Hands w.scratch writes (.ok ()) ∧
          Flushes flushes w.send.1) := by
  obtain ⟨writes, hhands, hwrites⟩ := Sink.hands_writeFrom w.scratch 0 w.sink
  rw [List.drop_zero] at hhands
  unfold send
  split
  next e k h =>
    rw [h] at hhands hwrites
    exact ⟨writes, ⟨hwrites, rfl⟩, Or.inl ⟨e, hhands, rfl⟩⟩
  next k h =>
    rw [h] at hhands hwrites
    obtain ⟨flushes, hflushes, hcalls⟩ := Sink.flushes_flushAll k
    refine ⟨writes ++ flushes, ⟨?_, rfl⟩, Or.inr ⟨writes, flushes, rfl, hhands, hflushes⟩⟩
    rw [← List.append_assoc, ← hwrites]
    exact hcalls

/-- Whatever is left of the frame before, only the wire form of this one is handed over. -/
theorem emits_write (f : Frame) (w : FrameWriter (Watched κ)) :
    ∃ calls, Emits w.maxPayload f calls (w.write f).1 ∧
      (w.write f).2.sink.calls = w.sink.calls ++ calls ∧
      (w.write f).2.maxPayload = w.maxPayload := by
  unfold write
  split
  next hmax => exact ⟨[], .refused hmax, by simp⟩
  next hmax =>
    have hmax := Nat.not_lt.mp hmax
    cases hencode : f.encode with
    | error e =>
      simp only [put, hencode]
      exact ⟨[], .unencodable hmax hencode, by simp⟩
    | ok bs =>
      simp only [put, hencode, List.nil_append]
      obtain ⟨calls, hcalls, ⟨e, hhands, hresult⟩ | ⟨writes, flushes, rfl, hhands, hflushes⟩⟩ :=
        send_eq { w with scratch := bs }
      · rw [hresult]
        exact ⟨calls, .cut hmax hencode hhands, hcalls⟩
      · exact ⟨_, .handed hmax hencode hhands hflushes, hcalls⟩

end FrameWriter

/-! ### What the sink has taken -/

section

variable {bs offered : Bytes} {calls before after : List SinkCall} {result : Except FrameError Unit}
  {answer : Except IoError Nat}

/-- What the sink takes is the front of what is handed over, and all of it if all is well. -/
theorem Hands.taken (h : Hands bs calls result) :
    ∃ left, calls.flatMap SinkCall.taken ++ left = bs ∧ (result = .ok () → left = []) := by
  induction h with
  | done => exact ⟨[], rfl, fun _ => rfl⟩
  | took _ _ ih =>
    obtain ⟨left, htaken, hleft⟩ := ih
    refine ⟨left, ?_, hleft⟩
    rw [List.flatMap_cons, List.append_assoc, htaken, SinkCall.taken, List.take_append_drop]
  | again _ _ _ ih =>
    obtain ⟨left, htaken, hleft⟩ := ih
    exact ⟨left, htaken, hleft⟩
  | @closed bs | @failed bs => exact ⟨bs, rfl, by simp⟩

/-- After some of the calls, what the sink has not taken is still to be handed over. -/
theorem Hands.rest {more : List SinkCall} (h : Hands bs (before ++ more) result)
    (hmore : more ≠ []) :
    ∃ left, before.flatMap SinkCall.taken ++ left = bs ∧ Hands left more result := by
  induction before generalizing bs with
  | nil => exact ⟨bs, rfl, h⟩
  | cons c before ih =>
    rw [List.cons_append] at h
    generalize hcalls : before ++ more = calls at h
    cases h with
    | took _ h =>
      subst hcalls
      obtain ⟨left, htaken, hleft⟩ := ih h
      refine ⟨left, ?_, hleft⟩
      rw [List.flatMap_cons, List.append_assoc, htaken, SinkCall.taken, List.take_append_drop]
    | again _ _ h =>
      subst hcalls
      exact ih h
    | closed | failed => exact absurd (List.append_eq_nil_iff.mp hcalls).2 hmore

/-- Every call offers what the calls before it have left. -/
theorem Hands.offers (h : Hands bs (before ++ .write offered answer :: after) result) :
    before.flatMap SinkCall.taken ++ offered = bs := by
  obtain ⟨left, htaken, hleft⟩ := h.rest (List.cons_ne_nil _ _)
  cases hleft <;> exact htaken

/-- Handing over does not flush. -/
theorem Hands.writes (h : Hands bs calls result) :
    ∀ c ∈ calls, ∃ offered answer, c = .write offered answer := by
  induction h with
  | done => simp
  | took _ _ ih | again _ _ _ ih => exact List.forall_mem_cons.mpr ⟨⟨_, _, rfl⟩, ih⟩
  | closed | failed => exact List.forall_mem_singleton.mpr ⟨_, _, rfl⟩

theorem Flushes.flushes (h : Flushes calls result) : ∀ c ∈ calls, ∃ answer, c = .flush answer := by
  induction h with
  | again _ _ ih => exact List.forall_mem_cons.mpr ⟨⟨_, rfl⟩, ih⟩
  | done | failed => exact List.forall_mem_singleton.mpr ⟨_, rfl⟩

theorem Flushes.taken (h : Flushes calls result) : calls.flatMap SinkCall.taken = [] := by
  induction h with
  | again _ _ ih => exact ih
  | done | failed => rfl

/-- Only requests to try again come before the flush that succeeds. -/
theorem Flushes.retried (h : Flushes calls (.ok ())) :
    ∃ retried, calls = retried ++ [.flush (.ok ())] ∧
      ∀ c ∈ retried, ∃ e, Sink.isRetry e ∧ c = .flush (.error e) := by
  generalize hresult : Except.ok () = result at h
  induction h with
  | done => exact ⟨[], rfl, by simp⟩
  | again hr _ ih =>
    obtain ⟨retried, rfl, hretried⟩ := ih hresult
    exact ⟨_ :: retried, rfl, List.forall_mem_cons.mpr ⟨⟨_, hr, rfl⟩, hretried⟩⟩
  | failed => simp at hresult

/-- A failure is the fault of the last call. -/
theorem Hands.fault {e : FrameError} (h : Hands bs calls (.error e)) :
    ∃ others last, calls = others ++ [last] ∧ last.fault? = some e := by
  generalize hresult : Except.error e = result at h
  induction h with
  | done => simp at hresult
  | took _ _ ih | again _ _ _ ih =>
    obtain ⟨others, last, rfl, hlast⟩ := ih hresult
    exact ⟨_ :: others, last, rfl, hlast⟩
  | closed =>
    cases hresult
    exact ⟨[], _, rfl, rfl⟩
  | failed _ hr =>
    cases hresult
    exact ⟨[], _, rfl, if_neg hr⟩

theorem Flushes.fault {e : FrameError} (h : Flushes calls (.error e)) :
    ∃ others last, calls = others ++ [last] ∧ last.fault? = some e := by
  generalize hresult : Except.error e = result at h
  induction h with
  | done => simp at hresult
  | again _ _ ih =>
    obtain ⟨others, last, rfl, hlast⟩ := ih hresult
    exact ⟨_ :: others, last, rfl, hlast⟩
  | failed hr =>
    cases hresult
    exact ⟨[], _, rfl, if_neg hr⟩

/-- A byte string has been handed to a sink, as far as the sink took it. -/
structure Received (bs : Bytes) (calls : List SinkCall) (result : Except FrameError Unit) :
    Prop where
  front : calls.flatMap SinkCall.taken <+: bs
  /-- Every call offers exactly what has not been taken. -/
  offers : ∀ before offered answer after, calls = before ++ .write offered answer :: after →
    before.flatMap SinkCall.taken ++ offered = bs
  /-- When all is well, the sink has taken everything, and then one flush has succeeded. -/
  ok : result = .ok () → ∃ writes retried, calls = writes ++ retried ++ [.flush (.ok ())] ∧
    (∀ c ∈ writes, ∃ offered answer, c = .write offered answer) ∧
    writes.flatMap SinkCall.taken = bs ∧
    ∀ c ∈ retried, ∃ e, Sink.isRetry e ∧ c = .flush (.error e)
  /-- A failure is the fault of the last call. -/
  failed : ∀ e, result = .error e →
    ∃ others last, calls = others ++ [last] ∧ last.fault? = some e

theorem Hands.received {e : FrameError} (h : Hands bs calls (.error e)) :
    Received bs calls (.error e) where
  front := by
    obtain ⟨left, htaken, -⟩ := h.taken
    exact ⟨left, htaken⟩
  offers := by
    rintro before offered answer after rfl
    exact h.offers
  ok := by simp
  failed := by
    rintro _ ⟨rfl⟩
    exact h.fault

theorem Hands.flushed {writes flushes : List SinkCall} (h : Hands bs writes (.ok ()))
    (k : Flushes flushes result) : Received bs (writes ++ flushes) result := by
  obtain ⟨left, htaken, hnone⟩ := h.taken
  rw [hnone rfl, List.append_nil] at htaken
  have htook : (writes ++ flushes).flatMap SinkCall.taken = bs := by
    rw [List.flatMap_append, htaken, k.taken, List.append_nil]
  refine { front := htook ▸ List.prefix_rfl, offers := ?_, ok := ?_, failed := ?_ }
  · intro before offered answer after hcalls
    have hwrite : SinkCall.write offered answer ∉ flushes := fun hmem => by
      obtain ⟨answer, hflush⟩ := k.flushes _ hmem
      simp at hflush
    rcases List.append_eq_append_iff.mp hcalls with ⟨others, rfl, hrest⟩ | ⟨others, rfl, hrest⟩
    · simp [hrest] at hwrite
    · cases others with
      | nil =>
        rw [List.nil_append] at hrest
        exact absurd (hrest ▸ List.mem_cons_self) hwrite
      | cons c others =>
        obtain ⟨rfl, -⟩ := List.cons.inj hrest
        exact h.offers
  · rintro rfl
    obtain ⟨retried, rfl, hretried⟩ := k.retried
    exact ⟨writes, retried, (List.append_assoc _ _ _).symm, h.writes, htaken, hretried⟩
  · rintro e rfl
    obtain ⟨others, last, rfl, hlast⟩ := k.fault
    exact ⟨writes ++ others, last, (List.append_assoc _ _ _).symm, hlast⟩

end

/-- A frame has been written to a sink whole, or not at all, as far as the sink took it. -/
structure Whole (max : Nat) (f : Frame) (calls : List SinkCall) (result : Except FrameError Unit) :
    Prop where
  /-- Nothing is written of a frame whose payload is too long. -/
  refused : max < f.payload.length →
    calls = [] ∧ result = .error (.payloadTooLarge f.payload.length max)
  unencodable : ∀ e, f.payload.length ≤ max → f.encode = .error e →
    calls = [] ∧ result = .error e
  received : ∀ bs, f.payload.length ≤ max → f.encode = .ok bs → Received bs calls result

theorem Emits.whole {max : Nat} {f : Frame} {calls : List SinkCall}
    {result : Except FrameError Unit} (h : Emits max f calls result) :
    Whole max f calls result := by
  cases h with
  | refused hmax =>
    have hnot : ¬ f.payload.length ≤ max := Nat.not_le.mpr hmax
    exact
      { refused := fun _ => ⟨rfl, rfl⟩
        unencodable := fun e hle => absurd hle hnot
        received := fun bs hle => absurd hle hnot }
  | unencodable hmax hencode =>
    exact
      { refused := fun hlt => absurd hmax (Nat.not_le.mpr hlt)
        unencodable := fun e _ he => by simp_all
        received := fun bs _ hbs => by simp_all }
  | cut hmax hencode hhands =>
    exact
      { refused := fun hlt => absurd hmax (Nat.not_le.mpr hlt)
        unencodable := fun e _ he => by simp [hencode] at he
        received := fun bs _ hbs => by
          obtain rfl := Except.ok.inj (hencode.symm.trans hbs)
          exact hhands.received }
  | handed hmax hencode hhands hflushes =>
    exact
      { refused := fun hlt => absurd hmax (Nat.not_le.mpr hlt)
        unencodable := fun e _ he => by simp [hencode] at he
        received := fun bs _ hbs => by
          obtain rfl := Except.ok.inj (hencode.symm.trans hbs)
          exact hhands.flushed hflushes }

/-! ### Watching -/

section

variable {κ : Type}

/-- The writer to the sink itself. -/
def FrameWriter.unwatched (w : FrameWriter (Watched κ)) : FrameWriter κ :=
  { sink := w.sink.sink, maxPayload := w.maxPayload, scratch := w.scratch }

variable [Sink κ]

theorem Sink.writeFrom_unwatched (buffer : Bytes) (offset : Nat) (k : Watched κ) :
    Sink.writeFrom buffer offset k.sink =
      ((Sink.writeFrom buffer offset k).1, (Sink.writeFrom buffer offset k).2.sink) := by
  have hwrite {offset : Nat} {k : Watched κ} {answer : Except IoError Nat}
      (h : (Sink.write (buffer.drop offset) k).1 = answer) :
      Sink.write (buffer.drop offset) k.sink =
        (answer, (Sink.write (buffer.drop offset) k).2.sink) := Prod.ext h rfl
  fun_induction Sink.writeFrom buffer offset k with
  | case1 offset k ho h => rw [writeFrom_eq, if_pos ho, hwrite h]
  | case2 offset k ho n h ih => rw [writeFrom_eq, if_pos ho, hwrite h, ← ih]
  | case3 offset k ho e h hr ih =>
    rw [writeFrom_eq, if_pos ho, hwrite h, ← ih]
    exact if_pos hr
  | case4 offset k ho e h hr =>
    rw [writeFrom_eq, if_pos ho, hwrite h]
    exact if_neg hr
  | case5 offset k ho => rw [writeFrom_eq, if_neg ho]

theorem Sink.flushAll_unwatched (k : Watched κ) :
    Sink.flushAll k.sink = ((Sink.flushAll k).1, (Sink.flushAll k).2.sink) := by
  have hflush {k : Watched κ} {answer : Except IoError Unit} (h : (Sink.flush k).1 = answer) :
      Sink.flush k.sink = (answer, (Sink.flush k).2.sink) := Prod.ext h rfl
  fun_induction Sink.flushAll k with
  | case1 k h => rw [flushAll_eq, hflush h]
  | case2 k e h hr ih =>
    rw [flushAll_eq, hflush h, ← ih]
    exact if_pos hr
  | case3 k e h hr =>
    rw [flushAll_eq, hflush h]
    exact if_neg hr

theorem FrameWriter.send_unwatched (w : FrameWriter (Watched κ)) :
    w.unwatched.send = (w.send.1, w.send.2.unwatched) := by
  have hwrite := Sink.writeFrom_unwatched w.scratch 0 w.sink
  rw [send, send, show w.unwatched.sink = w.sink.sink from rfl,
    show w.unwatched.scratch = w.scratch from rfl, hwrite]
  generalize Sink.writeFrom w.scratch 0 w.sink = written
  obtain ⟨result, k⟩ := written
  cases result with
  | error e => rfl
  | ok _ =>
    simp only [flush, Sink.flushAll_unwatched]
    rfl

/-- Watching a sink changes nothing about what is written to it. -/
theorem FrameWriter.write_unwatched (f : Frame) (w : FrameWriter (Watched κ)) :
    w.unwatched.write f = ((w.write f).1, (w.write f).2.unwatched) := by
  rw [write, write, show w.unwatched.maxPayload = w.maxPayload from rfl]
  split
  · rfl
  · cases hencode : f.encode with
    | error e =>
      simp only [put, hencode]
      rfl
    | ok bs =>
      simp only [put, hencode]
      exact send_unwatched { w with scratch := [] ++ bs }

end

/-! ### Writing many frames -/

/-- The payload is not too long, neither for a writer with this limit nor for the wire form. -/
def Frame.Fits (max : Nat) (f : Frame) : Prop :=
  f.payload.length ≤ max ∧ f.payload.length ≤ maxEncodable

instance (max : Nat) (f : Frame) : Decidable (f.Fits max) :=
  inferInstanceAs (Decidable (f.payload.length ≤ max ∧ f.payload.length ≤ Frame.maxEncodable))

section

variable {max : Nat} {f : Frame} {calls : List SinkCall} {result : Except FrameError Unit}

theorem Whole.eq_nil_of_not_fits (h : Whole max f calls result) (hfits : ¬ f.Fits max) :
    calls = [] := by
  by_cases hmax : max < f.payload.length
  · exact (h.refused hmax).1
  · have hlong : Frame.maxEncodable < f.payload.length :=
      Nat.not_le.mp fun hle => hfits ⟨Nat.not_lt.mp hmax, hle⟩
    exact (h.unencodable _ (Nat.not_lt.mp hmax) (if_pos hlong)).1

/-- When all is well, the frame fits, and the sink has taken its wire form. -/
theorem Whole.taken_of_ok (h : Whole max f calls (.ok ())) :
    f.Fits max ∧ calls.flatMap SinkCall.taken = f.bytes := by
  have hmax : f.payload.length ≤ max := Nat.not_lt.mp fun hlt => by simpa using (h.refused hlt).2
  have hlong : f.payload.length ≤ Frame.maxEncodable := Nat.not_lt.mp fun hlt => by
    simpa using (h.unencodable _ hmax (if_pos hlt)).2
  obtain ⟨writes, retried, rfl, -, htaken, hretried⟩ :=
    (h.received _ hmax (Frame.encode_eq_ok hlong)).ok rfl
  have hnothing : retried.flatMap SinkCall.taken = [] := by
    refine List.flatMap_eq_nil_iff.mpr fun c hc => ?_
    obtain ⟨e, -, rfl⟩ := hretried c hc
    rfl
  refine ⟨⟨hmax, hlong⟩, ?_⟩
  rw [List.flatMap_append, List.flatMap_append, htaken, hnothing, List.append_nil]
  exact List.append_nil _

/-- When every frame has been written or was too long, the sink has taken the wire forms of those
that were not. -/
theorem taken_of_whole {frames : List Frame}
    {outcomes : List (List SinkCall × Except FrameError Unit)}
    (h : List.Forall₂ (fun f o => Whole max f o.1 o.2) frames outcomes)
    (hall : List.Forall₂ (fun f result => result = .ok () ∨ ¬ f.Fits max) frames
      (outcomes.map Prod.snd)) :
    (outcomes.flatMap Prod.fst).flatMap SinkCall.taken =
      (frames.filter fun f => f.Fits max).flatMap Frame.bytes := by
  induction h with
  | nil => rfl
  | @cons f o frames outcomes hwhole _ ih =>
    rw [List.map_cons, List.forall₂_cons] at hall
    obtain ⟨hfirst, hrest⟩ := hall
    rw [List.flatMap_cons, List.flatMap_append, ih hrest, List.filter_cons]
    by_cases hfits : f.Fits max
    · obtain ⟨calls, result⟩ := o
      obtain rfl : result = .ok () := hfirst.resolve_right (not_not_intro hfits)
      simp [hfits, hwhole.taken_of_ok.2]
    · simp [hfits, hwhole.eq_nil_of_not_fits hfits]

end

namespace FrameWriter

variable {κ : Type} [Sink κ]

/-- Writes frames one after the other, whatever becomes of each. -/
def writeEach : List Frame → FrameWriter κ → List (Except FrameError Unit) × FrameWriter κ
  | [], w => ([], w)
  | f :: rest, w =>
    ((w.write f).1 :: (writeEach rest (w.write f).2).1, (writeEach rest (w.write f).2).2)

theorem writeEach_unwatched (frames : List Frame) (w : FrameWriter (Watched κ)) :
    w.unwatched.writeEach frames = ((w.writeEach frames).1, (w.writeEach frames).2.unwatched) := by
  induction frames generalizing w with
  | nil => rfl
  | cons f rest ih => simp [writeEach, write_unwatched, ih]

/-- Every frame is written whole or not at all, also after frames that were cut off. -/
theorem whole_writeEach (frames : List Frame) (w : FrameWriter (Watched κ)) :
    ∃ outcomes : List (List SinkCall × Except FrameError Unit),
      List.Forall₂ (fun f o => Whole w.maxPayload f o.1 o.2) frames outcomes ∧
      (w.writeEach frames).1 = outcomes.map Prod.snd ∧
      (w.writeEach frames).2.sink.calls = w.sink.calls ++ outcomes.flatMap Prod.fst := by
  induction frames generalizing w with
  | nil => exact ⟨[], .nil, rfl, by simp [writeEach]⟩
  | cons f rest ih =>
    obtain ⟨calls, hemits, hcalls, hsame⟩ := emits_write f w
    obtain ⟨outcomes, hwhole, hresults, hafter⟩ := ih (w.write f).2
    rw [hsame] at hwhole
    refine ⟨(calls, (w.write f).1) :: outcomes, .cons hemits.whole hwhole, ?_, ?_⟩
    · rw [writeEach, hresults, List.map_cons]
    · rw [writeEach, hafter, hcalls, List.flatMap_cons, List.append_assoc]

/-- Whatever frames are written to a sink, and whatever the sink does, it takes a prefix of the wire
form of each: every call offers what is left of it, and nothing else. All is well with a frame only
if the sink has taken all of it and then one flush has succeeded, and nothing is written of a frame
that is too long. When all is well with every frame that is not, the sink holds the wire forms of
these frames, in order. -/
theorem writes_whole (frames : List Frame) (w : FrameWriter (Watched κ)) :
    let results := (w.writeEach frames).1
    let after := (w.writeEach frames).2
    w.unwatched.writeEach frames = (results, after.unwatched) ∧
    (∃ outcomes : List (List SinkCall × Except FrameError Unit),
      List.Forall₂ (fun f o => Whole w.maxPayload f o.1 o.2) frames outcomes ∧
      results = outcomes.map Prod.snd ∧
      after.sink.calls = w.sink.calls ++ outcomes.flatMap Prod.fst) ∧
    (List.Forall₂ (fun f result => result = .ok () ∨ ¬ f.Fits w.maxPayload) frames results →
      ∃ bs, Frame.encodeAll (frames.filter fun f => f.Fits w.maxPayload) = .ok bs ∧
        after.sink.holds = w.sink.holds ++ bs) := by
  intro results after
  obtain ⟨outcomes, hwhole, hresults, hcalls⟩ := whole_writeEach frames w
  refine ⟨writeEach_unwatched frames w, ⟨outcomes, hwhole, hresults, hcalls⟩, fun hall => ?_⟩
  refine ⟨_, Frame.encodeAll_eq_ok fun f hf => ?_, ?_⟩
  · exact (of_decide_eq_true (List.mem_filter.mp hf).2 : f.Fits w.maxPayload).2
  · rw [show results = outcomes.map Prod.snd from hresults] at hall
    rw [Watched.holds, show after.sink.calls = _ from hcalls, List.flatMap_append,
      taken_of_whole hwhole hall]
    rfl

/-- A writer with the end of another frame left over, to a sink that takes five bytes, is
interrupted, takes four more, and then asks twice to be tried again. -/
def hesitant : FrameWriter (Watched ScriptedSink) where
  sink.sink.writes :=
    [.takes 5, .fails (.ofKind .interrupted), .takes 4, .fails (.ofKind .wouldBlock)]
  sink.sink.flushes := [.fails (.ofKind .wouldBlock)]
  maxPayload := 4
  scratch := Bytes.utf8 "left over"

/-- A frame that is too long between two others. -/
def threeFrames : List Frame :=
  [.ofPing (Bytes.utf8 "a"), .ofData 1 (Bytes.utf8 "oversized") true, .ofPing (Bytes.utf8 "b")]

/-- The frame that is too long is refused, and the sink holds the others. -/
theorem hesitant_writes_whole :
    (hesitant.writeEach threeFrames).1 = [.ok (), .error (.payloadTooLarge 9 4), .ok ()] ∧
      (hesitant.writeEach threeFrames).2.sink.holds =
        (Frame.ofPing (Bytes.utf8 "a")).bytes ++ (Frame.ofPing (Bytes.utf8 "b")).bytes := by
  have hresults : (hesitant.writeEach threeFrames).1 =
      [.ok (), .error (.payloadTooLarge 9 4), .ok ()] := by decide +kernel
  refine ⟨hresults, ?_⟩
  obtain ⟨-, -, hall⟩ := writes_whole threeFrames hesitant
  rw [hresults] at hall
  obtain ⟨bs, hencode, hholds⟩ :=
    hall (.cons (Or.inl rfl) (.cons (Or.inr (by decide)) (.cons (Or.inl rfl) .nil)))
  rw [hholds]
  have hbytes : Frame.encodeAll (threeFrames.filter fun f => f.Fits hesitant.maxPayload) =
      .ok ((Frame.ofPing (Bytes.utf8 "a")).bytes ++ (Frame.ofPing (Bytes.utf8 "b")).bytes) := by
    rfl
  exact Except.ok.inj (hencode.symm.trans hbytes)

end FrameWriter
end RequestFeed
