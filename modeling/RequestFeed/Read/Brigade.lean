import RequestFeed.Bytes
import RequestFeed.Total
/-!
# Brigades

The output of a read is a sequence of buckets: runs of bytes, and marks that say that no more
will follow.
-/

namespace RequestFeed

/-- One element of the output of a read. -/
inductive Bucket where
  | data (bytes : Bytes)
  | eos
  deriving DecidableEq, Repr

/-- The bytes of a bucket; a mark has none. -/
def Bucket.bytes : Bucket → Bytes
  | .data bytes => bytes
  | .eos => []

/-- An ordered sequence of buckets. -/
abbrev Brigade := List Bucket

namespace Brigade

/-- A brigade with these bytes; no bytes make no bucket. -/
def ofBytes : Bytes → Brigade
  | [] => []
  | bytes => [.data bytes]

def pushData (bytes : Bytes) (brigade : Brigade) : Brigade := brigade ++ ofBytes bytes

def pushEos (brigade : Brigade) : Brigade := brigade ++ [.eos]

def bytes : Brigade → Bytes
  | [] => []
  | [bucket] => bucket.bytes
  | bucket :: rest => bucket.bytes ++ bytes rest

def size (brigade : Brigade) : Nat := total (fun b => b.bytes.length) brigade

def hasEos (brigade : Brigade) : Bool := brigade.contains .eos

@[simp] theorem bytes_nil : bytes [] = [] := rfl

@[simp] theorem bytes_cons (b : Bucket) (brigade : Brigade) :
    bytes (b :: brigade) = b.bytes ++ bytes brigade := by
  cases brigade <;> simp [bytes]

@[simp] theorem bytes_append (a b : Brigade) : bytes (a ++ b) = bytes a ++ bytes b := by
  induction a with
  | nil => rfl
  | cons x a ih => simp [ih]

@[simp] theorem bytes_ofBytes (bs : Bytes) : bytes (ofBytes bs) = bs := by
  cases bs <;> simp [ofBytes, Bucket.bytes]

theorem size_eq_length_bytes (brigade : Brigade) : size brigade = (bytes brigade).length := by
  induction brigade with
  | nil => rfl
  | cons b brigade ih =>
    rw [bytes_cons, List.length_append, ← ih]
    simp [size]

end Brigade
end RequestFeed
