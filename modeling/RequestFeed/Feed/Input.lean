import RequestFeed.Read.Source
/-!
# Buffered input

The input of a demultiplexer: bytes that a source has delivered and nobody has taken yet, and the
status of the last read. A source may deliver more than it was asked for.
-/

namespace RequestFeed

/-- Bytes that were delivered and not yet taken. -/
structure Input where
  buffer : Bytes := []
  /-- The status of the last read; good before the first. -/
  last : Status := .ok
  deriving DecidableEq, Repr

namespace Input

section

variable {σ : Type} [Source σ]

/-- Asks the source for up to `n` bytes, unless some are still there. -/
def refill (n : Nat) (blocking : Blocking) (i : Input) (s : σ) : Input × σ :=
  if i.buffer = [] then
    let (reply, s) := Source.read ⟨.bytes, blocking, n⟩ s
    ({ buffer := reply.output.bytes, last := reply.status }, s)
  else (i, s)

/-- Takes up to `n` bytes, with at most one read of the source. -/
def take (n : Nat) (blocking : Blocking) (i : Input) (s : σ) : Bytes × Input × σ :=
  if n = 0 then ([], i, s)
  else
    let (i, s) := refill n blocking i s
    match i.buffer.drop n with
    | [] => (i.buffer, { i with buffer := [] }, s)
    | left => (i.buffer.take n, { i with buffer := left }, s)

def remaining (i : Input) (s : σ) : Nat := i.buffer.length + Source.remaining s

theorem remaining_refill_le (n : Nat) (blocking : Blocking) (i : Input) (s : σ) :
    (refill n blocking i s).1.remaining (refill n blocking i s).2 ≤ i.remaining s := by
  unfold refill
  split
  · have := Source.size_read_add_remaining_le ⟨.bytes, blocking, n⟩ s rfl
    rw [Brigade.size_eq_length_bytes] at this
    simp only [remaining]
    omega
  · exact Nat.le_refl _

/-- What is taken is taken out of what remains. -/
theorem length_take_add_remaining_le (n : Nat) (blocking : Blocking) (i : Input) (s : σ) :
    (take n blocking i s).1.length +
      (take n blocking i s).2.1.remaining (take n blocking i s).2.2 ≤ i.remaining s := by
  unfold take
  split
  · simp
  · refine Nat.le_trans ?_ (remaining_refill_le n blocking i s)
    dsimp only
    split
    · simp [remaining]
    · simp only [remaining, List.length_take, List.length_drop]
      omega

end

end Input
end RequestFeed
