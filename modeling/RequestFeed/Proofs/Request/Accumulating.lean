import Mathlib.Data.List.Induction
import RequestFeed.Proofs.Request.Reading
/-!
# Accumulating

What becomes of the bytes that are written to an accumulator, when it is read in between, in any
modes and with any limits, and when its end is set more than once.

*Invariant.* `AccumulatorRun.Stands`: what has been consumed and what is held are the bytes that
were appended before the end was first set. The end that has been set, and what has been dropped
after it, can be read off what has been done.

*Results.*
* `Accumulator.reads_read`: what one read does.
* `AccumulatorRun.stands_run`: the invariant holds after every run.
* `AccumulatorRun.loses_nothing`: what a run keeps in which nothing is appended after the end.
-/

namespace RequestFeed

/-! ### One read -/

namespace Accumulator

/-- What an accumulator answers when it is read, and what it is afterwards. -/
structure Reads (r : ReadRequest) (a : Accumulator) (reply : Reply) (after : Accumulator) :
    Prop where
  /-- A read fails for one reason only, and the end decides how. -/
  failed_iff : ∀ e, reply.status = .failed e ↔
    r.mode ≠ .init ∧ a.held.bytes = [] ∧ e = if a.isComplete then .eof else .wouldBlock
  failed : reply.status ≠ .ok → reply.output = [] ∧ after = a
  init : r.mode = .init → reply = Reply.ok [] ∧ after = a
  /-- There is one bucket, and the bytes in it are the first that are held. -/
  bucket : r.mode ≠ .init → reply.status = .ok →
    ∃ bs, reply.output = [.data bs] ∧ Portion r a.held.bytes bs
  conserves : reply.consumed r ++ after.held.bytes = a.held.bytes
  peeked : r.mode.consumes = false → after = a
  emptied : r.mode = .exhaustive → after.held.bytes = []
  growth : after.growth = a.growth

variable {r : ReadRequest} {a after : Accumulator} {reply : Reply}

theorem Answers.failed_iff (h : Answers r a reply after) (e : ReadError) :
    reply.status = .failed e ↔
      r.mode ≠ .init ∧ a.held.bytes = [] ∧ e = if a.isComplete then .eof else .wouldBlock := by
  cases h with
  | idle hinit => simp [Reply.ok, hinit]
  | nothing hr hnone =>
    simp only [Reply.failed, Status.failed.injEq, hr, hnone, ne_eq, not_false_eq_true, true_and,
      eq_comm (b := e)]
  | given hr hportion =>
    have hheld : a.held.bytes ≠ [] := fun hnone =>
      hportion.ne_nil (List.prefix_nil.mp (hnone ▸ hportion.front))
    simp [Reply.ok, hheld]

theorem Answers.emptied (h : Answers r a reply after) (hr : r.mode = .exhaustive) :
    after.held.bytes = [] := by
  cases h with
  | idle hinit => simp [hr] at hinit
  | nothing _ hnone => exact hnone
  | given _ hportion =>
    rw [if_pos (by simp [hr, ReadMode.consumes]), ByteQueue.bytes_drop, hportion.rest hr,
      List.drop_length]

theorem Answers.reads (h : Answers r a reply after) : Reads r a reply after where
  failed_iff := h.failed_iff
  failed hfailed := by
    cases h with
    | idle | given => exact absurd rfl hfailed
    | nothing => exact ⟨rfl, rfl⟩
  init hr := by
    cases h with
    | idle => exact ⟨rfl, rfl⟩
    | nothing hne | given hne => exact absurd hr hne
  bucket hr hok := by
    cases h with
    | idle hinit => exact absurd hinit hr
    | nothing => simp [Reply.failed] at hok
    | given _ hportion => exact ⟨_, Brigade.ofBytes_of_ne_nil hportion.ne_nil, hportion⟩
  conserves := h.held
  peeked hr := by
    cases h with
    | idle | nothing => rfl
    | given => rw [hr, if_neg Bool.false_ne_true]
  emptied := h.emptied
  growth := h.growth

theorem reads_read (r : ReadRequest) (a : Accumulator) : Reads r a (a.read r).1 (a.read r).2 :=
  (answers_read r a).reads

@[simp] theorem isComplete_complete (a : Accumulator) : a.complete.isComplete = true := by
  obtain ⟨held, growth⟩ := a
  cases growth <;> rfl

@[simp] theorem hasError_complete (a : Accumulator) : a.complete.hasError = a.hasError := by
  obtain ⟨held, growth⟩ := a
  cases growth <;> rfl

end Accumulator

/-! ### Runs -/

/-- What is done to an accumulator. -/
inductive AccumulatorAct where
  | append (bs : Bytes)
  | complete
  | fail
  | read (r : ReadRequest)
  deriving DecidableEq, Repr

namespace AccumulatorAct

def bytes : AccumulatorAct → Bytes
  | .append bs => bs
  | .complete | .fail | .read _ => []

def appends : AccumulatorAct → Bool
  | .append _ => true
  | .complete | .fail | .read _ => false

/-- The act sets the end. -/
def ends : AccumulatorAct → Bool
  | .complete | .fail => true
  | .append _ | .read _ => false

/-- What is told when the act comes after the end. -/
def late : AccumulatorAct → List Notice
  | .append bs => [.writeDropped bs.length]
  | .complete | .fail | .read _ => []

/-- The acts before the end is set. -/
def beforeEnd (acts : List AccumulatorAct) : List AccumulatorAct := acts.takeWhile fun a => !a.ends

/-- The acts from the one on that sets the end first. -/
def fromEnd (acts : List AccumulatorAct) : List AccumulatorAct := acts.dropWhile fun a => !a.ends

/-- Nothing is appended after the end. -/
def Orderly (acts : List AccumulatorAct) : Prop :=
  acts.Pairwise fun a b => a.ends = true → b.appends = false

instance (acts : List AccumulatorAct) : Decidable (Orderly acts) :=
  inferInstanceAs (Decidable (acts.Pairwise _))

section

variable {acts : List AccumulatorAct}

theorem bytes_of_not_appends {a : AccumulatorAct} (h : a.appends = false) :
    a.bytes = [] ∧ a.late = [] := by
  cases a with
  | append => simp [appends] at h
  | complete | fail | read => exact ⟨rfl, rfl⟩

theorem not_appends_of_ends {a : AccumulatorAct} (h : a.ends = true) : a.appends = false := by
  cases a with
  | append | read => simp [ends] at h
  | complete | fail => rfl

/-- What one act more adds to what is kept, and to what is dropped. -/
theorem split_concat (acts : List AccumulatorAct) (a : AccumulatorAct) :
    (beforeEnd (acts ++ [a])).flatMap bytes =
        (beforeEnd acts).flatMap bytes ++ (if acts.any ends then [] else a.bytes) ∧
      (fromEnd (acts ++ [a])).flatMap late =
        (fromEnd acts).flatMap late ++ (if acts.any ends then a.late else []) := by
  -- the first act decides: when it sets the end, the cut is before it, whatever comes
  induction acts with
  | nil =>
    cases ha : a.ends with
    | false => simp [beforeEnd, fromEnd, ha]
    | true =>
      obtain ⟨hbytes, hlate⟩ := bytes_of_not_appends (not_appends_of_ends ha)
      simp [beforeEnd, fromEnd, ha, hbytes, hlate]
  | cons b acts ih =>
    obtain ⟨hbefore, hfrom⟩ := ih
    simp only [beforeEnd, fromEnd] at hbefore hfrom
    cases hb : b.ends <;> simp [beforeEnd, fromEnd, hb, hbefore, hfrom]

/-- When nothing is appended after the end, everything is appended before it. -/
theorem Orderly.split (h : Orderly acts) :
    (beforeEnd acts).flatMap bytes = acts.flatMap bytes ∧ (fromEnd acts).flatMap late = [] := by
  induction acts with
  | nil => exact ⟨rfl, rfl⟩
  | cons a acts ih =>
    obtain ⟨hlater, hrest⟩ := List.pairwise_cons.mp h
    cases ha : a.ends with
    | false =>
      obtain ⟨hbytes, hlate⟩ := ih hrest
      simp only [beforeEnd, fromEnd] at hbytes hlate
      simp [beforeEnd, fromEnd, ha, hbytes, hlate]
    | true =>
      have hnone : ∀ b ∈ a :: acts, b.appends = false :=
        List.forall_mem_cons.mpr ⟨not_appends_of_ends ha, fun b hb => hlater b hb ha⟩
      have hbytes : (a :: acts).flatMap bytes = [] :=
        List.flatMap_eq_nil_iff.mpr fun b hb => (bytes_of_not_appends (hnone b hb)).1
      have hlate : (a :: acts).flatMap late = [] :=
        List.flatMap_eq_nil_iff.mpr fun b hb => (bytes_of_not_appends (hnone b hb)).2
      rw [hbytes, fromEnd, beforeEnd, List.takeWhile_cons_of_neg (by simp [ha]),
        List.dropWhile_cons_of_neg (by simp [ha])]
      exact ⟨rfl, hlate⟩

end

end AccumulatorAct

/-- An accumulator, the reads of it so far with their answers, and what it has told. -/
structure AccumulatorRun where
  accumulator : Accumulator := {}
  answers : List (ReadRequest × Reply) := []
  told : List Notice := []

namespace AccumulatorRun

open AccumulatorAct

/-- All bytes that have been moved out. -/
def consumed (t : AccumulatorRun) : Bytes :=
  t.answers.flatMap fun answer => answer.2.consumed answer.1

def step (t : AccumulatorRun) : AccumulatorAct → AccumulatorRun
  | .append bs =>
    { t with
      accumulator := (t.accumulator.append bs).1
      told := t.told ++ (t.accumulator.append bs).2 }
  | .complete => { t with accumulator := t.accumulator.complete }
  | .fail => { t with accumulator := t.accumulator.fail }
  | .read r =>
    { t with
      accumulator := (t.accumulator.read r).2
      answers := t.answers ++ [(r, (t.accumulator.read r).1)] }

def run (acts : List AccumulatorAct) (t : AccumulatorRun) : AccumulatorRun := acts.foldl step t

theorem run_append (first others : List AccumulatorAct) (t : AccumulatorRun) :
    t.run (first ++ others) = (t.run first).run others :=
  List.foldl_append

/-- An accumulator after these acts, from the beginning on. -/
structure Stands (acts : List AccumulatorAct) (t : AccumulatorRun) : Prop where
  /-- Until the end is set, everything that is appended is kept. -/
  conserves : t.consumed ++ t.accumulator.held.bytes = (beforeEnd acts).flatMap bytes
  /-- After it, everything that is appended is dropped, and this is told. -/
  told : t.told = (fromEnd acts).flatMap late
  complete : t.accumulator.isComplete = acts.any ends
  failed : t.accumulator.hasError = acts.contains .fail

theorem stands_start : Stands [] {} where
  conserves := rfl
  told := rfl
  complete := rfl
  failed := rfl

variable {acts : List AccumulatorAct} {t : AccumulatorRun}

/-- An act that appends nothing, and moves out what it takes from what is held. -/
theorem Stands.of_quiet {after : AccumulatorRun} {a : AccumulatorAct} (h : Stands acts t)
    (ha : a.appends = false)
    (hheld : after.consumed ++ after.accumulator.held.bytes =
      t.consumed ++ t.accumulator.held.bytes)
    (htold : after.told = t.told)
    (hcomplete : after.accumulator.isComplete = (t.accumulator.isComplete || a.ends))
    (hfailed : after.accumulator.hasError = (t.accumulator.hasError || a = .fail)) :
    Stands (acts ++ [a]) after := by
  obtain ⟨hbytes, hlate⟩ := bytes_of_not_appends ha
  obtain ⟨hkept, hdropped⟩ := split_concat acts a
  rw [hbytes, ite_self, List.append_nil] at hkept
  rw [hlate, ite_self, List.append_nil] at hdropped
  constructor
  · rw [hheld, hkept, h.conserves]
  · rw [htold, hdropped, h.told]
  · simp [hcomplete, h.complete]
  · simp [hfailed, h.failed, eq_comm]

theorem Stands.append (h : Stands acts t) (bs : Bytes) :
    Stands (acts ++ [.append bs]) (t.step (.append bs)) := by
  obtain ⟨hkept, hdropped⟩ := split_concat acts (.append bs)
  rw [← h.complete] at hkept hdropped
  have hheld := h.conserves
  have htold := h.told
  have hcomplete := h.complete
  have hfailed := h.failed
  cases hend : t.accumulator.isComplete with
  | true =>
    have hstep : t.step (.append bs) = { t with told := t.told ++ [.writeDropped bs.length] } := by
      simp [AccumulatorRun.step, Accumulator.append, hend]
    rw [hend] at hcomplete
    rw [hstep]
    constructor
    · rw [hkept, hend, if_pos rfl, List.append_nil]
      exact hheld
    · simp [hdropped, hend, htold, late]
    · simpa [hend, ends] using hcomplete
    · simpa using hfailed
  | false =>
    have hstep : t.step (.append bs) =
        { t with accumulator := { t.accumulator with held := t.accumulator.held.push bs } } := by
      simp [AccumulatorRun.step, Accumulator.append, hend]
    rw [hstep]
    constructor
    · simp only [hkept, hend, Bool.false_eq_true, if_false, ByteQueue.bytes_push, bytes]
      rw [← List.append_assoc]
      exact congrArg (· ++ bs) hheld
    · simpa [hdropped, hend] using htold
    · simpa [Accumulator.isComplete, ends] using hcomplete
    · simpa [Accumulator.hasError] using hfailed

/-- One act more. -/
theorem Stands.step (h : Stands acts t) (a : AccumulatorAct) :
    Stands (acts ++ [a]) (t.step a) := by
  cases a with
  | append bs => exact h.append bs
  | complete =>
    refine h.of_quiet rfl rfl rfl ?_ ?_
    · simp [AccumulatorRun.step, ends]
    · simp [AccumulatorRun.step]
  | fail =>
    refine h.of_quiet rfl rfl rfl ?_ ?_
    · simp [AccumulatorRun.step, Accumulator.fail, Accumulator.isComplete, ends]
    · simp [AccumulatorRun.step, Accumulator.fail, Accumulator.hasError]
  | read r =>
    have hheld := Accumulator.consumed_append_held r t.accumulator
    have hgrowth := Accumulator.growth_read r t.accumulator
    refine h.of_quiet rfl ?_ rfl ?_ ?_
    · simp [AccumulatorRun.step, consumed, hheld]
    · simp [AccumulatorRun.step, Accumulator.isComplete, hgrowth, ends]
    · simp [AccumulatorRun.step, Accumulator.hasError, hgrowth]

/-- After every run. -/
theorem stands_run (acts : List AccumulatorAct) : Stands acts (run acts {}) := by
  induction acts using List.reverseRecOn with
  | nil => exact stands_start
  | append_singleton acts a ih =>
    rw [run_append]
    exact ih.step a

/-- An accumulator after a run in which nothing is appended after the end. -/
structure Lossless (acts : List AccumulatorAct) (t : AccumulatorRun) : Prop where
  /-- What has been moved out, and then what is held, is what has been appended. -/
  whole : t.consumed ++ t.accumulator.held.bytes = acts.flatMap bytes
  undropped : t.told = []
  complete_iff : t.accumulator.isComplete = true ↔ ∃ a ∈ acts, a.ends = true
  failed_iff : t.accumulator.hasError = true ↔ .fail ∈ acts
  complete_of_failed : t.accumulator.hasError = true → t.accumulator.isComplete = true
  /-- Whatever is done, the end stays. -/
  complete_lasts : t.accumulator.isComplete = true →
    ∀ more, (t.run more).accumulator.isComplete = true
  failed_lasts : t.accumulator.hasError = true →
    ∀ more, (t.run more).accumulator.hasError = true
  reads : ∀ r, Accumulator.Reads r t.accumulator (t.accumulator.read r).1 (t.accumulator.read r).2

/-- When nothing is appended after the end, what has been moved out of an accumulator and what it
holds are what has been appended, in order. The end can only be set, and a failure sets it. A read
that moves something fails exactly when nothing is held, with the end of the input if the end is
set; otherwise it gives one bucket of bytes, which the mode and the limit determine. -/
theorem loses_nothing {acts : List AccumulatorAct} (h : Orderly acts) :
    Lossless acts (run acts {}) := by
  have hstands := stands_run acts
  obtain ⟨hkept, hdropped⟩ := h.split
  have hcomplete (acts : List AccumulatorAct) :
      (run acts {}).accumulator.isComplete = true ↔ ∃ a ∈ acts, a.ends = true := by
    rw [(stands_run acts).complete, List.any_eq_true]
  have hfailed (acts : List AccumulatorAct) :
      (run acts {}).accumulator.hasError = true ↔ .fail ∈ acts := by
    rw [(stands_run acts).failed, List.contains_iff_mem]
  constructor
  · rw [hstands.conserves, hkept]
  · rw [hstands.told, hdropped]
  · exact hcomplete acts
  · exact hfailed acts
  · rw [hfailed, hcomplete]
    exact fun hmem => ⟨_, hmem, rfl⟩
  · intro hend more
    rw [← run_append, hcomplete]
    obtain ⟨a, ha, hends⟩ := (hcomplete acts).mp hend
    exact ⟨a, List.mem_append_left more ha, hends⟩
  · intro hend more
    rw [← run_append, hfailed]
    exact List.mem_append_left more ((hfailed acts).mp hend)
  · exact fun r => Accumulator.reads_read r _

/-- Lines that are cut by a limit, with a look ahead and a failure between them. -/
def cutLines : List AccumulatorAct :=
  [.append (Bytes.utf8 "ab\ncd"), .read ⟨.line, .block, 2⟩, .read ⟨.line, .block, 1⟩,
    .read ⟨.speculative, .block, 0⟩, .append (Bytes.utf8 "ef"), .fail, .complete,
    .read ⟨.line, .nonBlock, 0⟩]

/-- Everything has been moved out, and the next read finds the end. -/
theorem cutLines_lossless :
    let t := run cutLines {}
    Orderly cutLines ∧ t.consumed = Bytes.utf8 "ab\ncdef" ∧ t.accumulator.hasError = true ∧
      (t.accumulator.read ⟨.bytes, .block, 0⟩).1.status = .failed .eof := by
  intro t
  have horderly : Orderly cutLines := by decide
  have hlossless : Lossless cutLines t := loses_nothing horderly
  have hnone : t.accumulator.held.bytes = [] := by decide +kernel
  have hfailed := hlossless.failed_iff.mpr (show AccumulatorAct.fail ∈ cutLines by decide)
  refine ⟨horderly, ?_, hfailed, ?_⟩
  · have hwhole := hlossless.whole
    rw [hnone, List.append_nil] at hwhole
    exact hwhole.trans (by decide)
  · rw [(hlossless.reads _).failed_iff, if_pos (hlossless.complete_of_failed hfailed)]
    exact ⟨by decide, hnone, rfl⟩

end AccumulatorRun
end RequestFeed
