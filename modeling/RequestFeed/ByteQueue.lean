import RequestFeed.Bytes
import RequestFeed.Total
/-!
# Byte queues

Bytes that come in pieces at one end and leave at the other. Pieces are kept apart until bytes that
they hold are taken out, so that a string that grows piece by piece is not copied with every piece.

*View.* A queue is its bytes: `ByteQueue.ext` says that nothing else tells two queues apart. What
each operation does is said about `ByteQueue.bytes`: see `bytes_push`, `first_eq`, `line?_eq` and
`bytes_drop`.
-/

namespace RequestFeed

/-- A string of bytes in pieces. -/
structure ByteQueue.Pieces where
  /-- The first bytes. -/
  front : Bytes
  /-- The pieces that came after them, the latest first. -/
  later : List Bytes
  size : Nat
  size_eq : size = front.length + total List.length later

namespace ByteQueue.Pieces

def bytes (p : Pieces) : Bytes :=
  match p.later with
  | [] => p.front
  | later => p.front ++ later.reverse.flatten

theorem bytes_eq (p : Pieces) : p.bytes = p.front ++ p.later.reverse.flatten := by
  unfold bytes
  split
  next h => simp [h]
  · rfl

theorem length_flatten_reverse (pieces : List Bytes) :
    pieces.reverse.flatten.length = total List.length pieces := by
  induction pieces with
  | nil => rfl
  | cons piece pieces ih =>
    simp only [List.reverse_cons, List.flatten_append, List.length_append, ih, total_cons,
      List.flatten_cons, List.flatten_nil, List.append_nil]
    omega

theorem length_bytes (p : Pieces) : p.bytes.length = p.size := by
  rw [bytes_eq, List.length_append, length_flatten_reverse, p.size_eq]

def ofBytes (bs : Bytes) : Pieces := ⟨bs, [], bs.length, rfl⟩

/-- Adds a piece after others. It is joined to pieces before it that are not longer, so that pieces
stay few however short they come. -/
def join (bs : Bytes) : List Bytes → List Bytes
  | [] => [bs]
  | last :: rest =>
    if Bytes.reaches (bs.length + 1) last then bs :: last :: rest else join (last ++ bs) rest

theorem flatten_reverse_join (bs : Bytes) (later : List Bytes) :
    (join bs later).reverse.flatten = later.reverse.flatten ++ bs := by
  induction later generalizing bs with
  | nil => simp [join]
  | cons last rest ih =>
    rw [join]
    split
    · simp
    · simp [ih]

def push (bs : Bytes) (p : Pieces) : Pieces :=
  if p.size = 0 then ofBytes bs
  else
    { front := p.front
      later := join bs p.later
      size := p.size + bs.length
      size_eq := by
        rw [← length_flatten_reverse, flatten_reverse_join, List.length_append,
          length_flatten_reverse, p.size_eq, Nat.add_assoc] }

theorem bytes_push (bs : Bytes) (p : Pieces) : (p.push bs).bytes = p.bytes ++ bs := by
  unfold push
  split
  next h =>
    rw [← length_bytes, List.length_eq_zero_iff] at h
    rw [h]
    rfl
  · simp [bytes_eq, flatten_reverse_join]

/-- Sees to it that the first `n` bytes are in front, if there are that many. -/
def gather (n : Nat) (p : Pieces) : Pieces :=
  if n ≤ p.size ∧ Bytes.reaches n p.front = false then
    ⟨p.bytes, [], p.size, p.length_bytes.symm⟩
  else p

@[simp] theorem bytes_gather (n : Nat) (p : Pieces) : (p.gather n).bytes = p.bytes := by
  unfold gather
  split <;> rfl

@[simp] theorem size_gather (n : Nat) (p : Pieces) : (p.gather n).size = p.size := by
  unfold gather
  split <;> rfl

theorem le_length_front_gather {n : Nat} {p : Pieces} (h : n ≤ p.size) :
    n ≤ (p.gather n).front.length := by
  unfold gather
  split
  · rw [length_bytes]
    exact h
  next hn =>
    rw [← Bytes.reaches_eq_true_iff]
    simpa [h] using hn

/-- The first `n` bytes of a string in pieces, after what has been found before. -/
def firstOf (found : Array UInt8) : Nat → List Bytes → Bytes
  | 0, _ => found.toList
  | _ + 1, [] => found.toList
  | n + 1, piece :: rest =>
    let taken := piece.take (n + 1)
    firstOf (found ++ taken) (n + 1 - taken.length) rest

theorem firstOf_eq (found : Array UInt8) (n : Nat) (pieces : List Bytes) :
    firstOf found n pieces = found.toList ++ pieces.flatten.take n := by
  induction pieces generalizing found n with
  | nil => cases n <;> simp [firstOf]
  | cons piece rest ih =>
    cases n with
    | zero => simp [firstOf]
    | succ n =>
      have : n + 1 - min (n + 1) piece.length = n + 1 - piece.length := by omega
      simp [firstOf, ih, List.take_append, this]

/-- The first bytes, as many as a limit lets through. -/
def first (limit : Nat) (p : Pieces) : Bytes :=
  if limit = 0 ∨ p.size ≤ limit then p.bytes else firstOf #[] limit (p.front :: p.later.reverse)

theorem first_eq (limit : Nat) (p : Pieces) : p.first limit = Bytes.limited limit p.bytes := by
  unfold first Bytes.limited
  split
  next h =>
    split
    · rfl
    · rw [List.take_of_length_le]
      rw [length_bytes]
      omega
  next h =>
    rw [if_neg (by omega)]
    simp [firstOf_eq, bytes_eq]

/--
How many bytes there are through the first line feed, if it is among the next `n`: those of a
piece and of the pieces after it. Others that came before have been counted.
-/
def lineEnd? (counted : Nat) : Nat → Bytes → List Bytes → Option Nat
  | 0, _, _ => none
  | _ + 1, [], [] => none
  | n + 1, [], piece :: rest => lineEnd? counted (n + 1) piece rest
  | n + 1, b :: bs, rest =>
    if b = Bytes.lineFeed then some (counted + 1) else lineEnd? (counted + 1) n bs rest
termination_by _ bs rest => bs.length + rest.flatten.length + rest.length

theorem lineEnd?_eq (counted n : Nat) (bs : Bytes) (rest : List Bytes) :
    lineEnd? counted n bs rest =
      (((bs ++ rest.flatten).take n).idxOf? Bytes.lineFeed).map fun i => counted + (i + 1) := by
  fun_induction lineEnd? counted n bs rest with
  | case1 => simp
  | case2 => simp
  | case3 counted n piece rest ih => simp [ih]
  | case4 counted n bs rest => simp [List.idxOf?_cons]
  | case5 counted n b bs rest hb ih =>
    have hb : (b == Bytes.lineFeed) = false := by simpa using hb
    rw [ih, List.cons_append, List.take_succ_cons, List.idxOf?_cons, hb,
      if_neg Bool.false_ne_true, Option.map_map]
    congr 1
    funext i
    simp only [Function.comp_apply]
    omega

/-- The bytes through the first line feed, if a limit lets it through. -/
def line? (limit : Nat) (p : Pieces) : Option Bytes :=
  (lineEnd? 0 (if limit = 0 then p.size else limit) p.front p.later.reverse).map p.first

theorem line?_eq (limit : Nat) (p : Pieces) :
    p.line? limit = Bytes.through? Bytes.lineFeed (Bytes.limited limit p.bytes) := by
  have hlimited : Bytes.limited limit p.bytes =
      p.bytes.take (if limit = 0 then p.size else limit) := by
    unfold Bytes.limited
    split
    · rw [← length_bytes, List.take_length]
    · rfl
  rw [line?, lineEnd?_eq, ← bytes_eq, hlimited, Bytes.through?, Option.map_map]
  refine Option.map_congr fun i hi => ?_
  have hlt := (List.idxOf?_eq_some_iff.mp hi).1
  simp only [Function.comp_apply, Nat.zero_add, first_eq, Bytes.limited, List.take_take]
  rw [if_neg (Nat.succ_ne_zero i), Nat.min_eq_left]
  rw [List.length_take] at hlt
  omega

/-- What is left without the first `n` bytes. -/
def drop (n : Nat) (p : Pieces) : Pieces :=
  if h : n < p.size then
    { front := (p.gather n).front.drop n
      later := (p.gather n).later
      size := p.size - n
      size_eq := by
        have hle := le_length_front_gather (Nat.le_of_lt h)
        have hsize := (p.gather n).size_eq
        rw [size_gather] at hsize
        rw [hsize, List.length_drop]
        omega }
  else ofBytes []

theorem bytes_drop (n : Nat) (p : Pieces) : (p.drop n).bytes = p.bytes.drop n := by
  unfold drop
  split
  next h =>
    have hle := le_length_front_gather (Nat.le_of_lt h)
    rw [← bytes_gather n p, bytes_eq, bytes_eq, List.drop_append_of_le_length hle]
  next h =>
    have : p.bytes.length ≤ n := by
      rw [length_bytes]
      omega
    rw [List.drop_eq_nil_of_le this]
    rfl

/-- Two ways to cut the same string. -/
def sameBytes : Setoid Pieces where
  r p q := p.bytes = q.bytes
  iseqv := ⟨fun _ => rfl, Eq.symm, Eq.trans⟩

end ByteQueue.Pieces

def ByteQueue : Type := Quotient ByteQueue.Pieces.sameBytes

namespace ByteQueue

/-- A queue that holds the bytes of these pieces. -/
def ofPieces (p : Pieces) : ByteQueue := Quotient.mk Pieces.sameBytes p

def bytes (q : ByteQueue) : Bytes := Quotient.lift Pieces.bytes (fun _ _ h => h) q

theorem bytes_ofPieces (p : Pieces) : (ofPieces p).bytes = p.bytes := rfl

/-- A queue is its bytes. -/
theorem ext {a b : ByteQueue} (h : a.bytes = b.bytes) : a = b := by
  induction a using Quotient.ind
  induction b using Quotient.ind
  exact Quotient.sound h

instance : DecidableEq ByteQueue := fun a b =>
  if h : a.bytes = b.bytes then isTrue (ext h) else isFalse fun he => h (congrArg bytes he)

instance : Repr ByteQueue := ⟨fun q => reprPrec q.bytes⟩

def ofBytes (bs : Bytes) : ByteQueue := ofPieces (Pieces.ofBytes bs)

@[simp] theorem bytes_ofBytes (bs : Bytes) : (ofBytes bs).bytes = bs := rfl

@[simp] theorem ofBytes_bytes (q : ByteQueue) : ofBytes q.bytes = q := ext (bytes_ofBytes q.bytes)

def empty : ByteQueue := ofBytes []

@[simp] theorem bytes_empty : empty.bytes = [] := rfl

def size (q : ByteQueue) : Nat :=
  Quotient.lift Pieces.size
    (fun a b (h : a.bytes = b.bytes) => by rw [← a.length_bytes, ← b.length_bytes, h]) q

@[simp] theorem length_bytes (q : ByteQueue) : q.bytes.length = q.size := by
  induction q using Quotient.ind with
  | _ p => exact p.length_bytes

@[simp] theorem size_empty : empty.size = 0 := rfl

def isEmpty (q : ByteQueue) : Bool := q.size == 0

theorem isEmpty_eq_true_iff {q : ByteQueue} : q.isEmpty = true ↔ q.bytes = [] := by
  rw [isEmpty, beq_iff_eq, ← length_bytes, List.length_eq_zero_iff]

def push (bs : Bytes) (q : ByteQueue) : ByteQueue :=
  Quotient.lift (fun p => ofPieces (p.push bs))
    (fun a b (h : a.bytes = b.bytes) => ext (by
      rw [bytes_ofPieces, bytes_ofPieces, Pieces.bytes_push, Pieces.bytes_push, h])) q

@[simp] theorem bytes_push (bs : Bytes) (q : ByteQueue) : (q.push bs).bytes = q.bytes ++ bs := by
  induction q using Quotient.ind with
  | _ p => exact p.bytes_push bs

@[simp] theorem size_push (bs : Bytes) (q : ByteQueue) : (q.push bs).size = q.size + bs.length := by
  rw [← length_bytes, bytes_push, List.length_append, length_bytes]

/-- The first bytes, as many as a limit lets through. A limit of zero lets everything through. -/
def first (limit : Nat) (q : ByteQueue) : Bytes :=
  Quotient.lift (Pieces.first limit)
    (fun a b (h : a.bytes = b.bytes) => by rw [Pieces.first_eq, Pieces.first_eq, h]) q

@[simp] theorem first_eq (limit : Nat) (q : ByteQueue) :
    q.first limit = Bytes.limited limit q.bytes := by
  induction q using Quotient.ind with
  | _ p => exact p.first_eq limit

/-- The bytes through the first line feed, if a limit lets it through. -/
def line? (limit : Nat) (q : ByteQueue) : Option Bytes :=
  Quotient.lift (Pieces.line? limit)
    (fun a b (h : a.bytes = b.bytes) => by rw [Pieces.line?_eq, Pieces.line?_eq, h]) q

@[simp] theorem line?_eq (limit : Nat) (q : ByteQueue) :
    q.line? limit = Bytes.through? Bytes.lineFeed (Bytes.limited limit q.bytes) := by
  induction q using Quotient.ind with
  | _ p => exact p.line?_eq limit

/-- What is left without the first `n` bytes. -/
def drop (n : Nat) (q : ByteQueue) : ByteQueue :=
  Quotient.lift (fun p => ofPieces (p.drop n))
    (fun a b (h : a.bytes = b.bytes) => ext (by
      rw [bytes_ofPieces, bytes_ofPieces, Pieces.bytes_drop, Pieces.bytes_drop, h])) q

@[simp] theorem bytes_drop (n : Nat) (q : ByteQueue) : (q.drop n).bytes = q.bytes.drop n := by
  induction q using Quotient.ind with
  | _ p => exact p.bytes_drop n

@[simp] theorem size_drop (n : Nat) (q : ByteQueue) : (q.drop n).size = q.size - n := by
  rw [← length_bytes, bytes_drop, List.length_drop, length_bytes]

end ByteQueue
end RequestFeed
