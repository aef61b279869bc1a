/-!
# Hexadecimal numbers

Lowercase hexadecimal digits of natural numbers, most significant digit first.
-/

namespace RequestFeed
namespace Hex

/-- The digit of a value below sixteen. -/
def digit (d : Nat) : Char :=
  if d < 10 then Char.ofNat (48 + d) else Char.ofNat (87 + d)

/-- The digits of `n`, without leading zeros; zero has one digit. -/
def digits (n : Nat) : List Char :=
  if n < 16 then [digit n] else digits (n / 16) ++ [digit (n % 16)]
termination_by n

theorem digit_eq : ∀ d < 16, digit d = Nat.digitChar d := by decide

/-- The digits are those of the core library. -/
theorem digits_eq (n : Nat) : digits n = Nat.toDigits 16 n := by
  fun_induction digits n with
  | case1 n hn => rw [digit_eq n hn, Nat.toDigits_of_lt_base hn]
  | case2 n hn ih =>
    have hlast : n % 16 < 16 := Nat.mod_lt n (by decide)
    rw [ih, digit_eq _ hlast, @Nat.toDigits_eq_if 16 n (by decide), if_neg hn]

def render (n : Nat) : String := String.ofList (digits n)

def renderByte (b : UInt8) : String :=
  String.ofList [digit (b.toNat / 16), digit (b.toNat % 16)]

end Hex
end RequestFeed
