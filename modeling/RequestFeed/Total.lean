/-!
# Totals

The total size of the elements of a list, whatever the size of one element is.
-/

namespace RequestFeed

variable {α : Type}

/-- The sizes of all elements together. -/
def total (size : α → Nat) : List α → Nat
  | [] => 0
  | x :: xs => size x + total size xs

@[simp] theorem total_nil (size : α → Nat) : total size [] = 0 := rfl

@[simp] theorem total_cons (size : α → Nat) (x : α) (xs : List α) :
    total size (x :: xs) = size x + total size xs := rfl

@[simp] theorem total_append (size : α → Nat) (xs ys : List α) :
    total size (xs ++ ys) = total size xs + total size ys := by
  induction xs with
  | nil => simp
  | cons x xs ih => simp [ih, Nat.add_assoc]

end RequestFeed
