/-!
# Byte strings

Byte strings, the ways in which wire formats cut them, and their text.

*Operations.*
* `Bytes.cut?` takes exactly as many bytes as asked for, or nothing;
* `Bytes.little` and `Bytes.ofLittle` write and read numbers of a fixed width, least significant
  byte first;
* `Bytes.utf8` and `Bytes.text?` are the UTF-8 form of a text and the text of a UTF-8 form.

*Results.*
* `cut?_eq_some_iff`: what is cut off and what is left make up the whole;
* `ofLittle_little` and `little_ofLittle`: the two number maps are inverse to each other, on the
  numbers below `Bytes.capacity` of the width;
* `text?_eq_some_iff`: only the UTF-8 form of a text reads as that text.
-/

namespace RequestFeed

abbrev Bytes := List UInt8

namespace Bytes

/-- The length of the longest string that memory has room for. -/
def maxLength : Nat := 0x7fffffffffffffff

/-- The string holds at least `n` bytes. -/
def reaches : Nat → Bytes → Bool
  | 0, _ => true
  | _ + 1, [] => false
  | n + 1, _ :: bs => reaches n bs

theorem reaches_eq_true_iff {n : Nat} {bs : Bytes} :
    reaches n bs = true ↔ n ≤ bs.length := by
  induction n generalizing bs with
  | zero => simp [reaches]
  | succ n ih =>
    cases bs with
    | nil => simp [reaches]
    | cons b bs => simp [reaches, ih]

/-- The first `n` bytes and the rest, when there are that many. -/
def cut? (n : Nat) (bs : Bytes) : Option (Bytes × Bytes) :=
  if reaches n bs then some (bs.take n, bs.drop n) else none

theorem cut?_eq_some_iff {n : Nat} {bs front rest : Bytes} :
    cut? n bs = some (front, rest) ↔ bs = front ++ rest ∧ front.length = n := by
  unfold cut?
  split
  next h =>
    rw [reaches_eq_true_iff] at h
    constructor
    · intro heq
      simp only [Option.some.injEq, Prod.mk.injEq] at heq
      obtain ⟨rfl, rfl⟩ := heq
      simp [h]
    · rintro ⟨rfl, rfl⟩
      simp
  next h =>
    rw [reaches_eq_true_iff] at h
    constructor
    · simp
    · rintro ⟨rfl, rfl⟩
      simp at h

theorem cut?_eq_none_iff {n : Nat} {bs : Bytes} :
    cut? n bs = none ↔ bs.length < n := by
  unfold cut?
  split
  next h =>
    rw [reaches_eq_true_iff] at h
    simp
    omega
  next h =>
    rw [reaches_eq_true_iff] at h
    simp
    omega

/-- What can be cut off a string can be cut off a longer one. -/
theorem cut?_append {n : Nat} {bs front rest : Bytes} (h : cut? n bs = some (front, rest))
    (more : Bytes) : cut? n (bs ++ more) = some (front, rest ++ more) := by
  rw [cut?_eq_some_iff] at h ⊢
  simp [h]

/-- The first bytes, as many as a limit lets through. A limit of zero lets everything through. -/
def limited (limit : Nat) (bs : Bytes) : Bytes := if limit = 0 then bs else bs.take limit

theorem length_limited_le (limit : Nat) (bs : Bytes) : (limited limit bs).length ≤ bs.length := by
  unfold limited
  split
  · exact Nat.le_refl _
  · exact List.length_take_le' limit bs

/-- The `width` lowest bytes of `n`, least significant first. -/
def little : Nat → Nat → Bytes
  | 0, _ => []
  | width + 1, n => UInt8.ofNat n :: little width (n / 256)

/-- The number whose bytes are given, least significant first. -/
def ofLittle : Bytes → Nat
  | [] => 0
  | b :: bs => b.toNat + 256 * ofLittle bs

/-- How many numbers a width has room for. -/
def capacity : Nat → Nat
  | 0 => 1
  | width + 1 => 256 * capacity width

@[simp] theorem length_little (width n : Nat) : (little width n).length = width := by
  induction width generalizing n with
  | zero => rfl
  | succ width ih => simp [little, ih]

theorem ofLittle_little (width n : Nat) : ofLittle (little width n) = n % capacity width := by
  induction width generalizing n with
  | zero => simp [little, ofLittle, capacity, Nat.mod_one]
  | succ width ih =>
    rw [little, ofLittle, ih, capacity, UInt8.toNat_ofNat', Nat.mod_mul]

theorem ofLittle_lt (bs : Bytes) : ofLittle bs < capacity bs.length := by
  induction bs with
  | nil => simp [ofLittle, capacity]
  | cons b bs ih =>
    have hb := b.toNat_lt
    rw [ofLittle, List.length_cons, capacity]
    omega

theorem little_ofLittle (bs : Bytes) : little bs.length (ofLittle bs) = bs := by
  induction bs with
  | nil => rfl
  | cons b bs ih =>
    have hb := b.toNat_lt
    rw [List.length_cons, little, ofLittle]
    congr 1
    · apply UInt8.toNat_inj.mp
      rw [UInt8.toNat_ofNat']
      omega
    · rw [show (b.toNat + 256 * ofLittle bs) / 256 = ofLittle bs by omega, ih]

def utf8 (s : String) : Bytes := s.toByteArray.data.toList

/-- The text whose UTF-8 form is given, if it is one. -/
def text? (bs : Bytes) : Option String := String.fromUTF8? ⟨bs.toArray⟩

@[simp] theorem length_utf8 (s : String) : (utf8 s).length = s.utf8ByteSize := rfl

theorem text?_eq_some_iff {bs : Bytes} {s : String} : text? bs = some s ↔ bs = utf8 s := by
  unfold text? String.fromUTF8? utf8
  constructor
  · intro h
    split at h
    · simp only [Option.some.injEq] at h
      subst h
      simp [String.fromUTF8]
    · simp at h
  · rintro rfl
    have hv : ByteArray.IsValidUTF8 ⟨s.toByteArray.data.toList.toArray⟩ := by
      simpa using s.isValidUTF8
    rw [dif_pos hv]
    simp [String.fromUTF8]

/-- The pieces between the occurrences of `separator`; a string without one is a single piece. -/
def pieces (separator : UInt8) (bs : Bytes) : List Bytes :=
  bs.foldr
    (fun b acc =>
      if b = separator then [] :: acc
      else match acc with
        | [] => [[b]]
        | piece :: rest => (b :: piece) :: rest)
    [[]]

/-- Everything through the first `mark`, if the mark occurs. -/
def through? (mark : UInt8) (bs : Bytes) : Option Bytes :=
  (bs.idxOf? mark).map fun i => bs.take (i + 1)

def lineFeed : UInt8 := 0x0a

end Bytes

end RequestFeed
