import RequestFeed.Json.Value
/-!
# JSON tokens

The words of a JSON text. Between words there may be blanks: space, tab, line feed and carriage
return. Texts may hold any character but controls; half of a surrogate pair alone is not a
character.
-/

namespace RequestFeed

/-- A word of a JSON text. -/
inductive JsonToken where
  | beginArray
  | endArray
  | beginObject
  | endObject
  | comma
  | colon
  | null
  | bool (value : Bool)
  | number (value : JsonNumber)
  | text (value : String)
  deriving DecidableEq, Repr

namespace JsonToken

/-- The value of a hexadecimal digit in either case. -/
def hexValue? (c : Char) : Option Nat :=
  if '0' ≤ c ∧ c ≤ '9' then some (c.toNat - 48)
  else if 'a' ≤ c ∧ c ≤ 'f' then some (c.toNat - 87)
  else if 'A' ≤ c ∧ c ≤ 'F' then some (c.toNat - 55)
  else none

/-- The number that four hexadecimal digits make. -/
def unit? (a b c d : Char) : Option Nat := do
  let a ← hexValue? a
  let b ← hexValue? b
  let c ← hexValue? c
  let d ← hexValue? d
  return ((a * 16 + b) * 16 + c) * 16 + d

/-- The character that a one-letter escape stands for. -/
def escaped? : Char → Option Char
  | '"' => some '"'
  | '\\' => some '\\'
  | '/' => some '/'
  | 'b' => some '\x08'
  | 'f' => some '\x0c'
  | 'n' => some '\n'
  | 'r' => some '\r'
  | 't' => some '\t'
  | _ => none

/-- One character of a text: what follows the escape sign, or the character itself. -/
def character? : List Char → Option (Char × List Char)
  | '\\' :: 'u' :: a :: b :: c :: d :: rest =>
    match unit? a b c d with
    | none => none
    | some high =>
      if 0xdc00 ≤ high ∧ high ≤ 0xdfff then none
      else if 0xd800 ≤ high ∧ high ≤ 0xdbff then
        match rest with
        | '\\' :: 'u' :: a :: b :: c :: d :: rest =>
          match unit? a b c d with
          | none => none
          | some low =>
            if 0xdc00 ≤ low ∧ low ≤ 0xdfff then
              some (Char.ofNat (0x10000 + (high - 0xd800) * 0x400 + (low - 0xdc00)), rest)
            else none
        | _ => none
      else some (Char.ofNat high, rest)
  | '\\' :: e :: rest => (escaped? e).map fun c => (c, rest)
  | c :: rest => if c.toNat < 0x20 then none else some (c, rest)
  | [] => none

theorem length_lt_of_character? {cs rest : List Char} {c : Char}
    (h : character? cs = some (c, rest)) : rest.length < cs.length := by
  unfold character? at h
  split at h
  · split at h
    · simp at h
    · split at h
      · simp at h
      · split at h
        · split at h
          · split at h
            · simp at h
            · split at h
              · simp only [Option.some.injEq, Prod.mk.injEq] at h
                obtain ⟨-, rfl⟩ := h
                simp only [List.length_cons]
                omega
              · simp at h
          · simp at h
        · simp only [Option.some.injEq, Prod.mk.injEq] at h
          obtain ⟨-, rfl⟩ := h
          simp only [List.length_cons]
          omega
  · simp only [Option.map_eq_some_iff, Prod.mk.injEq] at h
    obtain ⟨_, _, _, rfl⟩ := h
    simp only [List.length_cons]
    omega
  · split at h
    · simp at h
    · simp only [Option.some.injEq, Prod.mk.injEq] at h
      obtain ⟨-, rfl⟩ := h
      simp
  · simp at h

/--
The rest of a text after its opening quote: its characters, and what follows the closing quote.
The characters that were read before come with it, the latest first.
-/
def body? (before cs : List Char) : Option (List Char × List Char) :=
  match cs with
  | '"' :: rest => some (before.reverse, rest)
  | cs =>
    match _h : character? cs with
    | none => none
    | some (c, rest) => body? (c :: before) rest
termination_by cs.length
decreasing_by exact length_lt_of_character? _h

theorem length_lt_of_body? {before cs body rest : List Char}
    (h : body? before cs = some (body, rest)) : rest.length < cs.length := by
  fun_induction body? before cs with
  | case1 before left =>
    simp only [Option.some.injEq, Prod.mk.injEq] at h
    obtain ⟨-, rfl⟩ := h
    simp
  | case2 => simp at h
  | case3 before cs _ c left hc ih => exact Nat.lt_trans (ih h) (length_lt_of_character? hc)

/-- A character of a number. -/
def isNumberChar (c : Char) : Bool :=
  c.isDigit || c == '-' || c == '+' || c == '.' || c == 'e' || c == 'E'

/--
The number that the digits of an exponent make. Digits after the first four bytes' worth do not
count: no significand has the digits to make up for so large an exponent.
-/
def exponentValue (cs : List Char) : Nat :=
  cs.foldl (fun n c => if n < UInt32.size then n * 10 + (c.toNat - 48) else n) 0

/-- The exponent at the end of a number, without its mark. -/
def exponent? (cs : List Char) : Option Int :=
  let (negative, digits) := match cs with
    | '-' :: rest => (true, rest)
    | '+' :: rest => (false, rest)
    | rest => (false, rest)
  if digits ≠ [] ∧ digits.all Char.isDigit then
    some (if negative then -(exponentValue digits : Int) else exponentValue digits)
  else none

/-- The fraction and the exponent of a number: the digits of the fraction, and the exponent. -/
def tail? (cs : List Char) : Option (List Char × Option Int) :=
  let (fraction, rest, dotted) := match cs with
    | '.' :: rest => (rest.takeWhile Char.isDigit, rest.dropWhile Char.isDigit, true)
    | rest => ([], rest, false)
  if dotted ∧ fraction = [] then none
  else
    match rest with
    | [] => some (fraction, none)
    | 'e' :: rest | 'E' :: rest => (exponent? rest).map fun e => (fraction, some e)
    | _ => none

/-- A number without its sign. -/
def unsigned? (negative : Bool) (cs : List Char) : Option JsonNumber :=
  let whole := cs.takeWhile Char.isDigit
  let rest := cs.dropWhile Char.isDigit
  if whole = [] ∨ (whole.head? = some '0' ∧ whole.length ≠ 1) then none
  else
    (tail? rest).map fun (fraction, exponent) =>
      JsonNumber.ofDigits negative whole fraction exponent

/-- A number that double precision can hold. -/
def number? (cs : List Char) : Option JsonNumber :=
  let parsed := match cs with
    | '-' :: rest => unsigned? true rest
    | rest => unsigned? false rest
  parsed.filter JsonNumber.isFinite

def word? (cs : List Char) : Option JsonToken :=
  match String.ofList cs with
  | "null" => some .null
  | "true" => some (.bool true)
  | "false" => some (.bool false)
  | _ => none

def sign? : Char → Option JsonToken
  | '[' => some .beginArray
  | ']' => some .endArray
  | '\x7b' => some .beginObject
  | '\x7d' => some .endObject
  | ',' => some .comma
  | ':' => some .colon
  | _ => none

def isBlank (c : Char) : Bool := c == ' ' || c == '\t' || c == '\n' || c == '\r'

/-- The first word of a text that starts with one, and what follows it. -/
def first? : List Char → Option (JsonToken × List Char)
  | [] => none
  | c :: rest =>
    match sign? c with
    | some t => some (t, rest)
    | none =>
      if c = '"' then (body? [] rest).map fun (body, left) => (.text (String.ofList body), left)
      else if isNumberChar c then
        (number? (c :: rest.takeWhile isNumberChar)).map fun n =>
          (.number n, rest.dropWhile isNumberChar)
      else
        (word? (c :: rest.takeWhile Char.isAlpha)).map fun t => (t, rest.dropWhile Char.isAlpha)

theorem length_lt_of_first? {cs rest : List Char} {t : JsonToken}
    (h : first? cs = some (t, rest)) : rest.length < cs.length := by
  unfold first? at h
  split at h
  · simp at h
  next c tail =>
    split at h
    · simp only [Option.some.injEq, Prod.mk.injEq] at h
      obtain ⟨-, rfl⟩ := h
      simp
    · split at h
      · simp only [Option.map_eq_some_iff, Prod.mk.injEq] at h
        obtain ⟨⟨body, left⟩, hb, -, rfl⟩ := h
        have := length_lt_of_body? hb
        simp only [List.length_cons]
        omega
      · split at h
        · simp only [Option.map_eq_some_iff, Prod.mk.injEq] at h
          obtain ⟨_, _, -, rfl⟩ := h
          have := (List.dropWhile_suffix isNumberChar (l := tail)).length_le
          simp only [List.length_cons]
          omega
        · simp only [Option.map_eq_some_iff, Prod.mk.injEq] at h
          obtain ⟨_, _, -, rfl⟩ := h
          have := (List.dropWhile_suffix Char.isAlpha (l := tail)).length_le
          simp only [List.length_cons]
          omega

/--
The words of a text. Those that were read before come with it, the latest first.
-/
def words? (before : List JsonToken) (cs : List Char) : Option (List JsonToken) :=
  match _hc : cs with
  | [] => some before.reverse
  | c :: rest =>
    if isBlank c then words? before rest
    else
      match _h : first? cs with
      | none => none
      | some (t, left) => words? (t :: before) left
termination_by cs.length
decreasing_by
  · simp
  · have := length_lt_of_first? _h
    simpa [_hc] using this

def ofChars? (cs : List Char) : Option (List JsonToken) := words? [] cs

end JsonToken
end RequestFeed
