import Mathlib.Data.List.TakeWhile
import RequestFeed.Proofs.Header.Grammar
import RequestFeed.Request.Projection
/-!
# Messages

How the bytes of requests are taken apart by whoever receives them: the head up to the empty line,
and the body that the head announces. A body is in chunks, or it has the number of bytes that the
head gives, or there is none.

*Results.*
* `Message.head?_append`: a head ends at its empty line, whatever follows it.
* `Message.field?_fieldLine`: header lines are read as the name and the value.
* `Message.chunks?_append`: a body in chunks ends at the chunk that closes it, whatever follows it.
-/

namespace RequestFeed

theorem Bytes.utf8_inj {s t : String} : utf8 s = utf8 t ↔ s = t := by
  constructor
  · intro h
    have hs : text? (utf8 t) = some s := text?_eq_some_iff.mpr h.symm
    simpa [text?_eq_some_iff.mpr rfl] using hs.symm
  · rintro rfl
    rfl

/-- A message as it is taken out of a stream of bytes. -/
structure Message where
  requestLine : Bytes
  /-- The header lines as names, in lowercase, and values. -/
  fields : List (Bytes × Bytes)
  body : Bytes
  deriving DecidableEq, Repr

namespace Message

/-! ### Lines and numbers -/

/-- The first line, without its end, and what follows it. -/
def line? : Bytes → Option (Bytes × Bytes)
  | [] => none
  | 0x0d :: 0x0a :: rest => some ([], rest)
  | b :: rest => (line? rest).map fun (line, left) => (b :: line, left)

theorem length_lt_of_line? {bs line rest : Bytes} (h : line? bs = some (line, rest)) :
    rest.length < bs.length := by
  fun_induction line? bs generalizing line with
  | case1 => simp at h
  | case2 rest' =>
    simp only [Option.some.injEq, Prod.mk.injEq] at h
    simp only [← h.2, List.length_cons]
    omega
  | case3 b bs hne ih =>
    simp only [Option.map_eq_some_iff, Prod.mk.injEq] at h
    obtain ⟨⟨line', rest'⟩, hline, -, rfl⟩ := h
    exact Nat.lt_succ_of_lt (ih hline)

/-- A line ends at the first line end; it holds no carriage return itself. -/
theorem line?_append {line : Bytes} (h : 0x0d ∉ line) (rest : Bytes) :
    line? (line ++ (RequestHead.lineEnd ++ rest)) = some (line, rest) := by
  induction line with
  | nil => rfl
  | cons b line ih =>
    rw [List.mem_cons, not_or] at h
    rw [List.cons_append, line?, ih h.2]
    · rfl
    · exact fun _ hb => absurd hb.symm h.1

/-- A space or a tab. -/
def isBlank (b : UInt8) : Bool := b == 0x20 || b == 0x09

/-- What is left without blanks at both ends. -/
def trim (bs : Bytes) : Bytes := ((bs.dropWhile isBlank).reverse.dropWhile isBlank).reverse

def lower (b : UInt8) : UInt8 := if 0x41 ≤ b ∧ b ≤ 0x5a then b + 0x20 else b

/-- The value of a digit. -/
def digit? (b : UInt8) : Option Nat :=
  if 0x30 ≤ b ∧ b ≤ 0x39 then some (b.toNat - 0x30)
  else if 0x61 ≤ lower b ∧ lower b ≤ 0x66 then some ((lower b).toNat - 0x57)
  else none

/-- The number that begins with the digits of `n` and goes on with these. -/
def digits? (base n : Nat) : Bytes → Option Nat
  | [] => some n
  | b :: bs =>
    match digit? b with
    | none => none
    | some d => if d < base then digits? base (base * n + d) bs else none

/-- The number that has these digits. -/
def number? (base : Nat) (bs : Bytes) : Option Nat :=
  if bs = [] then none else digits? base 0 bs

/-! ### Heads -/

/-- The lines up to the empty line, and what follows it. -/
def head? (bs : Bytes) : Option (List Bytes × Bytes) :=
  match _h : line? bs with
  | none => none
  | some ([], rest) => some ([], rest)
  | some (b :: line, rest) => (head? rest).map fun (lines, left) => ((b :: line) :: lines, left)
termination_by bs.length
decreasing_by exact length_lt_of_line? _h

/-- A header line as its name and its value. -/
def field? (line : Bytes) : Option (Bytes × Bytes) :=
  let name := line.takeWhile (· ≠ 0x3a)
  if name = [] ∨ name.any isBlank ∨ name = line then none
  else some (name.map lower, trim (line.drop (name.length + 1)))

/-- The values of all fields with a name. -/
def valuesOf (name : String) (fields : List (Bytes × Bytes)) : List Bytes :=
  (fields.filter fun f => f.1 = Bytes.utf8 name).map Prod.snd

/-- What a head announces. A body of no bytes is none. -/
inductive BodyForm where
  | chunked
  | sized (length : Nat)
  deriving DecidableEq, Repr

/-- The one number that all of these values are. -/
def length? : List Bytes → Option Nat
  | [] => none
  | value :: others => do
    let n ← number? 10 value
    if others.all fun other => number? 10 other = some n then some n else none

/-- What these fields announce, if it can be understood. -/
def bodyForm? (fields : List (Bytes × Bytes)) : Option BodyForm :=
  match valuesOf "transfer-encoding" fields with
  | [] =>
    match valuesOf RequestHead.lengthName fields with
    | [] => some (.sized 0)
    | values => (length? values).map .sized
  | [coding] => if coding.map lower = Bytes.utf8 "chunked" then some .chunked else none
  | _ => none

/-! ### Bodies and messages -/

/-- A body in chunks, and what follows it. What a chunk says beside its size is ignored, and so are
the lines after the last chunk. -/
def chunks? (bs : Bytes) : Option (Bytes × Bytes) :=
  match _h : line? bs with
  | none => none
  | some (line, rest) =>
    match number? 16 (line.takeWhile (· ≠ 0x3b)) with
    | none => none
    | some 0 => (head? rest).map fun (_, left) => ([], left)
    | some (n + 1) =>
      match _hc : Bytes.cut? (n + 1) rest with
      | some (data, 0x0d :: 0x0a :: left) =>
        (chunks? left).map fun (more, left) => (data ++ more, left)
      | _ => none
termination_by bs.length
decreasing_by
  have hline := length_lt_of_line? _h
  have hdata := congrArg List.length (Bytes.cut?_eq_some_iff.mp _hc).1
  simp only [List.length_append, List.length_cons] at hdata
  omega

/-- A body of this form, and what follows it. -/
def body? : BodyForm → Bytes → Option (Bytes × Bytes)
  | .chunked, bs => chunks? bs
  | .sized n, bs => Bytes.cut? n bs

/-- The first message, and what follows it. -/
def read? (bs : Bytes) : Option (Message × Bytes) := do
  let (lines, rest) ← head? bs
  match lines with
  | [] => none
  | requestLine :: fieldLines =>
    let fields ← fieldLines.mapM field?
    let form ← bodyForm? fields
    (body? form rest).map fun (body, left) => (⟨requestLine, fields, body⟩, left)

/-! ### Reading heads -/

theorem head?_of_empty {bs rest : Bytes} (h : line? bs = some ([], rest)) :
    head? bs = some ([], rest) := by
  rw [head?]
  split <;> simp_all

theorem head?_of_line {bs line rest : Bytes} (h : line? bs = some (line, rest)) (hne : line ≠ []) :
    head? bs = (head? rest).map fun (lines, left) => (line :: lines, left) := by
  rw [head?]
  split <;> simp_all

/-- A head ends at its empty line, whatever follows it. -/
theorem head?_append {lines : List Bytes} (h : ∀ line ∈ lines, line ≠ [] ∧ 0x0d ∉ line)
    (rest : Bytes) :
    head? (lines.flatMap (· ++ RequestHead.lineEnd) ++ (RequestHead.lineEnd ++ rest)) =
      some (lines, rest) := by
  induction lines with
  | nil => exact head?_of_empty (line?_append List.not_mem_nil rest)
  | cons line lines ih =>
    obtain ⟨hne, hcr⟩ := h line List.mem_cons_self
    rw [List.flatMap_cons, List.append_assoc, List.append_assoc,
      head?_of_line (line?_append hcr _) hne,
      ih fun other hother => h other (List.mem_cons_of_mem _ hother)]
    rfl

/-- The bytes of a header line, without its end. -/
def fieldLine (field : String × Bytes) : Bytes :=
  Bytes.utf8 field.1 ++ [0x3a, 0x20] ++ field.2

section

variable {name : String} (h : HeaderBlock.IsName name)
include h

theorem utf8_ne_nil : Bytes.utf8 name ≠ [] := fun hnil => h.nonempty (Bytes.utf8_inj.mp hnil)

theorem ne_of_mem_name {b : UInt8} (hb : b ∈ Bytes.utf8 name) :
    b ≠ 0x0d ∧ isBlank b = false := by
  have hvisible := (h.visible b hb).1
  have hne (c : UInt8) (hc : c < 0x21) : b ≠ c := by
    rintro rfl
    exact absurd hvisible (UInt8.not_le.mpr hc)
  refine ⟨hne 0x0d (by decide), ?_⟩
  simp only [isBlank, Bool.or_eq_false_iff, beq_eq_false_iff_ne]
  exact ⟨hne 0x20 (by decide), hne 0x09 (by decide)⟩

theorem map_lower_name : (Bytes.utf8 name).map lower = Bytes.utf8 name := by
  refine (List.map_congr_left fun b hb => ?_).trans (List.map_id _)
  exact if_neg (h.lowercase b hb)

theorem takeWhile_fieldLine (value : Bytes) :
    (fieldLine (name, value)).takeWhile (· ≠ 0x3a) = Bytes.utf8 name := by
  rw [fieldLine, List.append_assoc, List.takeWhile_append_of_pos]
  · simp
  · exact fun b hb => decide_eq_true (h.noColon b hb)

/-- A header line is read as the name and the value, without the blanks around the value. -/
theorem field?_fieldLine (value : Bytes) :
    field? (fieldLine (name, value)) = some (Bytes.utf8 name, trim value) := by
  have hblank : (Bytes.utf8 name).any isBlank = false := by
    rw [List.any_eq_false]
    exact fun b hb => by simp [(ne_of_mem_name h hb).2]
  have hline : Bytes.utf8 name ≠ fieldLine (name, value) := by
    intro heq
    simpa [fieldLine] using congrArg List.length heq
  have hvalue : (fieldLine (name, value)).drop ((Bytes.utf8 name).length + 1) = 0x20 :: value := by
    simp [fieldLine, List.drop_append]
  have htrim : trim (0x20 :: value) = trim value := by simp [trim, isBlank]
  rw [field?, takeWhile_fieldLine h, if_neg (by simp [utf8_ne_nil h, hblank, hline]), hvalue, htrim,
    map_lower_name h]

end

/-! ### Reading chunks -/

theorem utf8_ofList (cs : List Char) :
    Bytes.utf8 (String.ofList cs) = cs.flatMap String.utf8EncodeChar := by
  simp [Bytes.utf8, List.utf8Encode]

/-- The byte of a hexadecimal digit. -/
def hexByte (d : Nat) : UInt8 := UInt8.ofNat (Hex.digit d).toNat

theorem hexByte_spec : ∀ d < 16, String.utf8EncodeChar (Hex.digit d) = [hexByte d] ∧
    digit? (hexByte d) = some d ∧ hexByte d ≠ 0x3b ∧ hexByte d ≠ 0x0d := by decide

theorem digits?_append (base n : Nat) (xs ys : Bytes) :
    digits? base n (xs ++ ys) = (digits? base n xs).bind fun m => digits? base m ys := by
  induction xs generalizing n with
  | nil => rfl
  | cons b xs ih =>
    rw [List.cons_append, digits?, digits?]
    split
    · rfl
    · split
      · exact ih _
      · rfl

/-- The bytes of a hexadecimal number are those of its digits. -/
theorem utf8_render (n : Nat) :
    ∃ ds : List Nat, Bytes.utf8 (Hex.render n) = ds.map hexByte ∧ ds ≠ [] ∧ (∀ d ∈ ds, d < 16) ∧
      digits? 16 0 (ds.map hexByte) = some n := by
  rw [Hex.render, utf8_ofList]
  fun_induction Hex.digits n with
  | case1 n hn =>
    obtain ⟨hbyte, hdigit, -, -⟩ := hexByte_spec n hn
    refine ⟨[n], by simp [hbyte], by simp, by simpa using hn, ?_⟩
    simp [digits?, hdigit, hn]
  | case2 n hn ih =>
    obtain ⟨ds, hds, hne, hlt, hvalue⟩ := ih
    have hlast : n % 16 < 16 := Nat.mod_lt _ (by decide)
    obtain ⟨hbyte, hdigit, -, -⟩ := hexByte_spec (n % 16) hlast
    refine ⟨ds ++ [n % 16], ?_, by simp, ?_, ?_⟩
    · rw [List.flatMap_append, hds, List.map_append]
      simp [hbyte]
    · exact List.forall_mem_append.mpr ⟨hlt, by simpa using hlast⟩
    · rw [List.map_append, digits?_append, hvalue]
      simp [digits?, hdigit, hlast, Nat.div_add_mod]

/-- The line that opens a chunk gives the number of its bytes. -/
theorem chunkLine (n : Nat) :
    0x0d ∉ Bytes.utf8 (Hex.render n) ∧
      number? 16 ((Bytes.utf8 (Hex.render n)).takeWhile (· ≠ 0x3b)) = some n := by
  obtain ⟨ds, hds, hne, hlt, hvalue⟩ := utf8_render n
  have hbytes : ∀ b ∈ ds.map hexByte, b ≠ 0x3b ∧ b ≠ 0x0d := by
    rw [List.forall_mem_map]
    exact fun d hd => (hexByte_spec d (hlt d hd)).2.2
  rw [hds, List.takeWhile_eq_self_iff.mpr fun b hb => decide_eq_true (hbytes b hb).1]
  refine ⟨fun hmem => (hbytes _ hmem).2 rfl, ?_⟩
  rw [number?, if_neg (by simpa using hne), hvalue]

theorem chunks?_of_data {bs line rest left : Bytes} {n : Nat}
    (hline : line? bs = some (line, rest))
    (hsize : number? 16 (line.takeWhile (· ≠ 0x3b)) = some (n + 1)) {data : Bytes}
    (hcut : Bytes.cut? (n + 1) rest = some (data, RequestHead.lineEnd ++ left)) :
    chunks? bs = (chunks? left).map fun (more, left) => (data ++ more, left) := by
  rw [chunks?]
  split
  next h => simp [hline] at h
  next line' rest' h =>
    obtain ⟨rfl, rfl⟩ : line = line' ∧ rest = rest' := by simpa [hline] using h
    simp only [hsize]
    split
    next data' left' h =>
      obtain ⟨rfl, rfl⟩ : data = data' ∧ left = left' := by
        simpa [hcut, RequestHead.lineEnd] using h
      rfl
    next h => exact absurd hcut (h data left)

theorem chunks?_of_last {bs line rest left : Bytes} {lines : List Bytes}
    (hline : line? bs = some (line, rest))
    (hsize : number? 16 (line.takeWhile (· ≠ 0x3b)) = some 0)
    (hhead : head? rest = some (lines, left)) : chunks? bs = some ([], left) := by
  rw [chunks?]
  split
  next h => simp [hline] at h
  next line' rest' h =>
    obtain ⟨rfl, rfl⟩ : line = line' ∧ rest = rest' := by simpa [hline] using h
    simp only [hsize, hhead]
    rfl

/-- A chunk is read as its bytes, and then the rest is read. -/
theorem chunks?_chunk {data : Bytes} (hne : data ≠ []) (rest : Bytes) :
    chunks? (ProjectionStage.chunk data ++ rest) =
      (chunks? rest).map fun (more, left) => (data ++ more, left) := by
  obtain ⟨hcr, hsize⟩ := chunkLine data.length
  obtain ⟨n, hn⟩ := Nat.exists_eq_succ_of_ne_zero (mt List.length_eq_zero_iff.mp hne)
  have hcut : Bytes.cut? (n + 1) (data ++ (RequestHead.lineEnd ++ rest)) =
      some (data, RequestHead.lineEnd ++ rest) := Bytes.cut?_eq_some_iff.mpr ⟨rfl, hn⟩
  simp only [ProjectionStage.chunk, List.append_assoc]
  exact chunks?_of_data (line?_append hcr _) (hsize.trans (congrArg some hn)) hcut

/-- The chunk that closes a body is read as no bytes, and ends the body. -/
theorem chunks?_lastChunk (rest : Bytes) :
    chunks? (ProjectionStage.lastChunk ++ rest) = some ([], rest) := by
  have hline : line? (ProjectionStage.lastChunk ++ rest) =
      some ([0x30], RequestHead.lineEnd ++ rest) := rfl
  exact chunks?_of_last hline (by decide) (head?_of_empty rfl)

/-- A body in chunks ends at the chunk that closes it, whatever follows it. -/
theorem chunks?_append (pieces : List Bytes) (rest : Bytes) :
    chunks? (pieces.flatMap (ProjectionStage.bodyBytes true) ++
      (ProjectionStage.lastChunk ++ rest)) = some (pieces.flatten, rest) := by
  induction pieces with
  | nil => exact chunks?_lastChunk rest
  | cons data pieces ih =>
    rw [List.flatMap_cons, List.append_assoc, ProjectionStage.bodyBytes]
    by_cases hne : data = []
    · rw [if_pos rfl, if_pos hne, List.nil_append, ih, List.flatten_cons, hne, List.nil_append]
    · rw [if_pos rfl, if_neg hne, chunks?_chunk hne, ih]
      rfl

end Message
end RequestFeed
