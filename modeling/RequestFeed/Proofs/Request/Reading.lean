import RequestFeed.Request.Accumulator
/-!
# Reading accumulators

A read takes its bytes from the front of what an accumulator holds. What it consumes and what is
left make up what was held.

*Step.* `Accumulator.Answers`: everything that one read of an accumulator can do, with
`Accumulator.Portion` for the bytes that it gives.

*Results.*
* `Accumulator.answers_read`: every read is of this kind.
* `Accumulator.read_eq` and `Accumulator.read_prefix`: what a read of held bytes produces, consumes
  and leaves.
* `Accumulator.consumed_append_held` and `Accumulator.growth_read`: no read loses anything, or has a
  bearing on the end.
-/

namespace RequestFeed

/-- The bytes that an answer takes out of the source that gave it. -/
def Reply.consumed (r : ReadRequest) (reply : Reply) : Bytes :=
  if r.mode.consumes then reply.output.bytes else []

theorem Reply.consumed_of_bytes_eq_nil {reply : Reply} (h : reply.output.bytes = [])
    (r : ReadRequest) : reply.consumed r = [] := by
  unfold consumed
  split
  · exact h
  · rfl

theorem Bytes.limited_ne_nil {bs : Bytes} (h : bs ≠ []) (limit : Nat) :
    limited limit bs ≠ [] := by
  unfold limited
  split
  · exact h
  next hl =>
    cases bs with
    | nil => exact absurd rfl h
    | cons b bs =>
      cases limit with
      | zero => exact absurd rfl hl
      | succ n => simp

theorem Bytes.limited_prefix (limit : Nat) (bs : Bytes) : limited limit bs <+: bs := by
  unfold limited
  split
  · exact List.prefix_rfl
  · exact List.take_prefix limit bs

theorem Bytes.length_limited_le_limit {limit : Nat} (h : limit ≠ 0) (bs : Bytes) :
    (limited limit bs).length ≤ limit := by
  rw [limited, if_neg h]
  exact List.length_take_le limit bs

theorem Brigade.ofBytes_of_ne_nil {bs : Bytes} (h : bs ≠ []) : ofBytes bs = [.data bs] := by
  cases bs with
  | nil => exact absurd rfl h
  | cons b bs => rfl

theorem Bytes.through?_prefix {mark : UInt8} {bs line : Bytes} (h : through? mark bs = some line) :
    line ≠ [] ∧ line <+: bs := by
  unfold through? at h
  obtain ⟨i, hi, rfl⟩ := Option.map_eq_some_iff.mp h
  have hlt := (List.idxOf?_eq_some_iff.mp hi).1
  refine ⟨?_, List.take_prefix _ _⟩
  intro hnil
  have := congrArg List.length hnil
  rw [List.length_take, List.length_nil] at this
  omega

theorem Bytes.through?_eq_none_iff {mark : UInt8} {bs : Bytes} :
    through? mark bs = none ↔ mark ∉ bs := by
  rw [through?, Option.map_eq_none_iff, List.idxOf?_eq_none_iff]

/-- What goes through the first mark has the mark only at its end. -/
theorem Bytes.mark_of_through? {mark : UInt8} {bs line : Bytes} (h : through? mark bs = some line) :
    mark ∈ line ∧ mark ∉ line.dropLast := by
  obtain ⟨i, hi, rfl⟩ := Option.map_eq_some_iff.mp h
  obtain ⟨hlt, hmark, hbefore⟩ := List.idxOf?_eq_some_iff.mp hi
  constructor
  · rw [List.mem_take_iff_getElem]
    exact ⟨i, by omega, hmark⟩
  · intro hmem
    rw [List.dropLast_eq_take, List.take_take, List.mem_take_iff_getElem, List.length_take] at hmem
    obtain ⟨j, hj, hagain⟩ := hmem
    exact hbefore j (by omega) hagain

namespace Accumulator

/-- These are bytes that an accumulator which holds `held` gives in answer to a request. -/
structure Portion (r : ReadRequest) (held bs : Bytes) : Prop where
  ne_nil : bs ≠ []
  front : bs <+: held
  /-- Only a read of everything goes beyond its limit. -/
  within : r.mode ≠ .exhaustive → r.limit ≠ 0 → bs.length ≤ r.limit
  limited : r.mode = .bytes ∨ r.mode = .speculative → bs = Bytes.limited r.limit held
  /-- A line ends with its line feed, or it is cut where the limit is. -/
  line : r.mode = .line → Bytes.lineFeed ∉ bs.dropLast ∧
    (Bytes.lineFeed ∉ bs → bs = Bytes.limited r.limit held)
  rest : r.mode = .exhaustive → bs = held

/-- The first bytes, as many as the limit lets through, are given by a read of bytes or of a line in
which there is no line feed. -/
theorem portion_limited {r : ReadRequest} {held : Bytes} (hh : held ≠ [])
    (hr : r.mode = .bytes ∨ r.mode = .speculative ∨
      r.mode = .line ∧ Bytes.lineFeed ∉ Bytes.limited r.limit held) :
    Portion r held (Bytes.limited r.limit held) where
  ne_nil := Bytes.limited_ne_nil hh _
  front := Bytes.limited_prefix _ _
  within _ hl := Bytes.length_limited_le_limit hl held
  limited _ := rfl
  line hline := by
    obtain ⟨-, hnone⟩ : r.mode = .line ∧ Bytes.lineFeed ∉ Bytes.limited r.limit held := by
      simpa [hline] using hr
    exact ⟨fun hmem => hnone (List.dropLast_subset _ hmem), fun _ => rfl⟩
  rest hrest := by simp [hrest] at hr

/-- A line that the limit lets through to its end is given whole. -/
theorem portion_through {r : ReadRequest} {held line : Bytes} (hr : r.mode = .line)
    (h : Bytes.through? Bytes.lineFeed (Bytes.limited r.limit held) = some line) :
    Portion r held line := by
  obtain ⟨hne, hfront⟩ := Bytes.through?_prefix h
  obtain ⟨hmark, honce⟩ := Bytes.mark_of_through? h
  exact
    { ne_nil := hne
      front := hfront.trans (Bytes.limited_prefix _ _)
      within := fun _ hl =>
        Nat.le_trans hfront.length_le (Bytes.length_limited_le_limit hl held)
      limited := by simp [hr]
      line := fun _ => ⟨honce, fun hnone => absurd hmark hnone⟩
      rest := by simp [hr] }

theorem portion_produce {r : ReadRequest} {held : ByteQueue} (hr : r.mode ≠ .init)
    (hh : held.bytes ≠ []) : Portion r held.bytes (produce r held) := by
  cases hmode : r.mode with
  | init => exact absurd hmode hr
  | bytes | speculative =>
    have hproduce : produce r held = Bytes.limited r.limit held.bytes := by simp [produce, hmode]
    rw [hproduce]
    exact portion_limited hh (by simp [hmode])
  | line =>
    have hproduce : produce r held =
        (Bytes.through? Bytes.lineFeed (Bytes.limited r.limit held.bytes)).getD
          (Bytes.limited r.limit held.bytes) := by
      simp [produce, hmode]
    rw [hproduce]
    cases hthrough : Bytes.through? Bytes.lineFeed (Bytes.limited r.limit held.bytes) with
    | some line => exact portion_through hmode hthrough
    | none =>
      exact portion_limited hh (Or.inr (Or.inr ⟨hmode, Bytes.through?_eq_none_iff.mp hthrough⟩))
  | exhaustive =>
    have hproduce : produce r held = held.bytes := by simp [produce, hmode]
    rw [hproduce]
    exact
      { ne_nil := hh
        front := List.prefix_rfl
        within := by simp [hmode]
        limited := by simp [hmode]
        line := by simp [hmode]
        rest := fun _ => rfl }

/-- How an accumulator answers a read. -/
inductive Answers (r : ReadRequest) (a : Accumulator) : Reply → Accumulator → Prop where
  /-- The accumulator is only asked whether it is there. -/
  | idle : r.mode = .init → Answers r a (Reply.ok []) a
  | nothing : r.mode ≠ .init → a.held.bytes = [] →
      Answers r a (Reply.failed (if a.isComplete then .eof else .wouldBlock)) a
  | given {bs : Bytes} : r.mode ≠ .init → Portion r a.held.bytes bs →
      Answers r a (Reply.ok bs)
        (if r.mode.consumes then { a with held := a.held.drop bs.length } else a)

theorem answers_read (r : ReadRequest) (a : Accumulator) :
    Answers r a (a.read r).1 (a.read r).2 := by
  by_cases hr : r.mode = .init
  · have hread : a.read r = (Reply.ok [], a) := by simp [read, hr, Reply.ok, Brigade.ofBytes]
    rw [hread]
    exact .idle hr
  · cases hempty : a.held.isEmpty with
    | true =>
      simp only [read, if_neg hr, hempty, if_true]
      exact .nothing hr (ByteQueue.isEmpty_eq_true_iff.mp hempty)
    | false =>
      have hheld : a.held.bytes ≠ [] := by simp [← ByteQueue.isEmpty_eq_true_iff, hempty]
      simp only [read, if_neg hr, hempty, Bool.false_eq_true, if_false]
      exact .given hr (portion_produce hr hheld)

section

variable {r : ReadRequest} {a after : Accumulator} {reply : Reply}

/-- Reading does not end an output, and does not open it again. -/
theorem Answers.growth (h : Answers r a reply after) : after.growth = a.growth := by
  cases h with
  | idle | nothing => rfl
  | given => split <;> rfl

/-- What a read consumes and what it leaves are what was held. -/
theorem Answers.held (h : Answers r a reply after) :
    reply.consumed r ++ after.held.bytes = a.held.bytes := by
  cases h with
  | idle | nothing => rw [Reply.consumed_of_bytes_eq_nil rfl, List.nil_append]
  | given _ hportion =>
    rw [Reply.consumed, Reply.ok, Brigade.bytes_ofBytes]
    split
    · obtain ⟨rest, hrest⟩ := hportion.front
      rw [ByteQueue.bytes_drop, ← hrest, List.drop_left]
    · rfl

/-- When bytes are held, a read that moves something gives some of them. -/
theorem Answers.exists_portion (h : Answers r a reply after) (hr : r.mode ≠ .init)
    (ha : a.held.bytes ≠ []) : ∃ bs, reply = Reply.ok bs ∧ Portion r a.held.bytes bs := by
  cases h with
  | idle hinit => exact absurd hinit hr
  | nothing _ hnone => exact absurd hnone ha
  | given _ hportion => exact ⟨_, rfl, hportion⟩

theorem growth_read (r : ReadRequest) (a : Accumulator) : (a.read r).2.growth = a.growth :=
  (answers_read r a).growth

theorem consumed_append_held (r : ReadRequest) (a : Accumulator) :
    (a.read r).1.consumed r ++ (a.read r).2.held.bytes = a.held.bytes :=
  (answers_read r a).held

/-- A read of held bytes answers with some of them. What it consumes comes from the front. -/
theorem read_eq (hr : r.mode ≠ .init) (ha : a.held.bytes ≠ []) :
    ∃ bs, bs ≠ [] ∧ (a.read r).1 = Reply.ok bs ∧
      a.held.bytes = (Reply.ok bs).consumed r ++ (a.read r).2.held.bytes ∧
      (a.read r).2.growth = a.growth := by
  obtain ⟨bs, hreply, hportion⟩ := (answers_read r a).exists_portion hr ha
  refine ⟨bs, hportion.ne_nil, hreply, ?_, growth_read r a⟩
  rw [← hreply, consumed_append_held]

/-- What a read of held bytes shows comes from the front, whatever the mode. -/
theorem read_prefix (r : ReadRequest) (ha : a.held.bytes ≠ []) :
    ∃ bs, (a.read r).1 = Reply.ok bs ∧ bs <+: a.held.bytes ∧
      a.held.bytes = (Reply.ok bs).consumed r ++ (a.read r).2.held.bytes ∧
      (a.read r).2.growth = a.growth := by
  obtain ⟨bs, hreply, hfront⟩ : ∃ bs, (a.read r).1 = Reply.ok bs ∧ bs <+: a.held.bytes := by
    by_cases hr : r.mode = .init
    · exact ⟨[], by simp [read, hr, Reply.ok, Brigade.ofBytes], List.nil_prefix⟩
    · obtain ⟨bs, hreply, hportion⟩ := (answers_read r a).exists_portion hr ha
      exact ⟨bs, hreply, hportion.front⟩
  refine ⟨bs, hreply, hfront, ?_, growth_read r a⟩
  rw [← hreply, consumed_append_held]

end

end Accumulator
end RequestFeed
