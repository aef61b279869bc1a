import RequestFeed.Proofs.Request.Course
import RequestFeed.Proofs.Request.Message
/-!
# The chunked coding

The grammar of bodies in chunks: a size in lowercase hexadecimal digits and a line end, as many
bytes and a line end, again and again, and a size of zero with an empty line at the end. Any bytes
may stand in a chunk, those of sizes and of ends too.

*Results.*
* `Chunked.unique`: no bytes begin with the codes of two payloads, or with two codes of one.
* `chunked_flatMap`: the body of a request in chunks is the code of what its events brought.
* `Projection.chunked_decodes_iff`: the body of such a request is decoded to these bytes, and no
  further.
-/

namespace RequestFeed

open Message RequestHead

/-- A digit of a size. -/
def IsHexDigit (b : UInt8) : Prop := (0x30 ≤ b ∧ b ≤ 0x39) ∨ (0x61 ≤ b ∧ b ≤ 0x66)

instance (b : UInt8) : Decidable (IsHexDigit b) := inferInstanceAs (Decidable (_ ∨ _))

/-- These digits are the size `n`. -/
structure IsSize (digits : Bytes) (n : Nat) : Prop where
  hexadecimal : ∀ b ∈ digits, IsHexDigit b
  value : number? 16 digits = some n

/-- A payload and its code. -/
inductive Chunked : Bytes → Bytes → Prop
  | last : Chunked [] (Bytes.utf8 "0" ++ lineEnd ++ lineEnd)
  | chunk {size data payload code : Bytes} (hsize : IsSize size data.length) (hdata : data ≠ [])
      (h : Chunked payload code) :
      Chunked (data ++ payload) (size ++ lineEnd ++ data ++ lineEnd ++ code)

/-! ### Decoding -/

section

variable {digits other rest left : Bytes} {m n : Nat}

theorem isSize_zero : IsSize (Bytes.utf8 "0") 0 := ⟨by decide +kernel, by decide⟩

theorem IsSize.noReturn (h : IsSize digits n) : 0x0d ∉ digits := by
  intro hmem
  have := h.hexadecimal _ hmem
  revert this
  decide

/-- A size ends at its line end, so that no bytes begin with two of them. -/
theorem IsSize.unique (h : IsSize digits m) (k : IsSize other n)
    (heq : digits ++ (lineEnd ++ rest) = other ++ (lineEnd ++ left)) : m = n ∧ rest = left := by
  have hline := line?_append h.noReturn rest
  rw [heq, line?_append k.noReturn, Option.some.injEq, Prod.mk.injEq] at hline
  obtain ⟨rfl, rfl⟩ := hline
  exact ⟨Option.some.inj (h.value.symm.trans k.value), rfl⟩

end

/-- No bytes begin with the codes of two payloads, or with two codes of one. -/
theorem Chunked.unique {payload code payload' code' left left' : Bytes} (h : Chunked payload code)
    (k : Chunked payload' code') (heq : code ++ left = code' ++ left') :
    payload = payload' ∧ left = left' := by
  induction h generalizing payload' code' with
  | last =>
    cases k with
    | last => exact ⟨rfl, List.append_cancel_left heq⟩
    | chunk hsize hdata h =>
      simp only [List.append_assoc] at heq
      have hlength := (isSize_zero.unique hsize heq).1
      exact absurd (List.length_eq_zero_iff.mp hlength.symm) hdata
  | chunk hsize hdata h ih =>
    cases k with
    | last =>
      simp only [List.append_assoc] at heq
      have hlength := (hsize.unique isSize_zero heq).1
      exact absurd (List.length_eq_zero_iff.mp hlength) hdata
    | chunk hsize' hdata' h' =>
      simp only [List.append_assoc] at heq
      obtain ⟨hlength, hrest⟩ := hsize.unique hsize' heq
      obtain ⟨rfl, hrest⟩ := List.append_inj hrest hlength
      obtain ⟨rfl, rfl⟩ := ih h' (List.append_cancel_left (List.append_cancel_left hrest))
      exact ⟨rfl, rfl⟩

/-! ### Bodies of requests -/

theorem isHexDigit_hexByte : ∀ d < 16, IsHexDigit (hexByte d) := by decide

theorem isSize_render (n : Nat) : IsSize (Bytes.utf8 (Hex.render n)) n := by
  obtain ⟨ds, hds, hne, hlt, hvalue⟩ := utf8_render n
  rw [hds]
  constructor
  · rw [List.forall_mem_map]
    exact fun d hd => isHexDigit_hexByte d (hlt d hd)
  · rw [number?, if_neg (by simpa using hne), hvalue]

/-- A body in chunks is the code of its pieces. Those without bytes do not close it. -/
theorem chunked_flatMap (pieces : List Bytes) :
    Chunked pieces.flatten
      (pieces.flatMap (StreamEvent.coded true) ++ StreamEvent.ending true) := by
  rw [← ProjectionStage.bodyBytes_eq]
  induction pieces with
  | nil => exact .last
  | cons data pieces ih =>
    rw [List.flatMap_cons, List.append_assoc, ProjectionStage.bodyBytes, if_pos rfl]
    by_cases hdata : data = []
    · rw [if_pos hdata, hdata]
      exact ih
    · rw [if_neg hdata]
      exact .chunk (isSize_render data.length) hdata ih

namespace Projection

open StreamEvent

variable {stream : StreamId} {headers : HeaderBlock}

/-- The head of an accepted request can be rendered. -/
theorem render_of_accepted {fin : Bool}
    (h : (run [.opened headers fin] { stream }).output.growth ≠ .failed) :
    ∃ head, render headers (isChunked headers fin) = .ok head := by
  cases hhead : render headers (isChunked headers fin) with
  | ok head => exact ⟨head, rfl⟩
  | error cause =>
    have hfailed := (run_of_course (.broken .unopened (.unrenderable hhead) []) stream).1
    exact absurd hfailed h

/--
The request of a stream whose length was not announced is its head and the code of the bytes that
the stream brought. Whatever follows in a feed, decoding ends where the request ends, and yields
these bytes and no others.
-/
theorem chunked_decodes_iff (hlength : headers.get? lengthName = none)
    (haccepted : (run [.opened headers false] { stream }).output.growth ≠ .failed)
    (pieces : List Bytes) (last : Bytes) :
    (run (upload headers pieces last) { stream }).output.growth = .complete ∧
      ∃ body, (run (upload headers pieces last) { stream }).written =
          (run [.opened headers false] { stream }).written ++ body ∧
        ∀ following payload left,
          (∃ code, body ++ following = code ++ left ∧ Chunked payload code) ↔
            payload = pieces.flatten ++ last ∧ left = following := by
  obtain ⟨head, hhead⟩ := render_of_accepted haccepted
  have hchunked : isChunked headers false = true := isChunked_eq_true_iff.mpr ⟨rfl, hlength⟩
  have hhead_written : (run [.opened headers false] { stream }).written = head := by
    simpa using (run_of_course (.begun (.opened hhead [])) stream).2
  obtain ⟨-, hcomplete, hwritten⟩ := run_of_makes (.bodied hhead pieces last) stream
  rw [hchunked, List.append_assoc] at hwritten
  have hbody : Chunked (pieces.flatten ++ last)
      ((pieces ++ [last]).flatMap (coded true) ++ ending true) := by
    simpa using chunked_flatMap (pieces ++ [last])
  refine ⟨hcomplete, _, by rw [hhead_written]; exact hwritten, fun following payload left => ?_⟩
  constructor
  · rintro ⟨code, heq, hcode⟩
    obtain ⟨hpayload, hleft⟩ := hbody.unique hcode heq
    exact ⟨hpayload.symm, hleft.symm⟩
  · rintro ⟨rfl, rfl⟩
    exact ⟨_, rfl, hbody⟩

/-- Headers that do not announce a length. -/
def posted : HeaderBlock :=
  HeaderBlock.offerAll [("method", "POST"), ("url", "/"), ("version", "HTTP/1.1")] {}

/-- A body that holds a last chunk and a chunk, and ends without bytes. -/
theorem misleading_decodes :
    posted.get? lengthName = none ∧
      (run [.opened posted false] { stream := 1 }).output.growth ≠ .failed ∧
      ∃ body, (run (upload posted [[], Bytes.utf8 "0\r\n\r\n", Bytes.utf8 "1\r\nx"] [])
            { stream := 1 }).written =
          (run [.opened posted false] { stream := 1 }).written ++ body ∧
        ∀ payload left,
          (∃ code, body ++ Bytes.utf8 "0\r\n\r\n" = code ++ left ∧ Chunked payload code) ↔
            payload = Bytes.utf8 "0\r\n\r\n1\r\nx" ∧ left = Bytes.utf8 "0\r\n\r\n" := by
  have hlength : posted.get? lengthName = none := by decide +kernel
  have haccepted : (run [.opened posted false] { stream := 1 }).output.growth ≠ .failed := by
    decide +kernel
  obtain ⟨-, body, hwritten, hbody⟩ := chunked_decodes_iff hlength haccepted
    [[], Bytes.utf8 "0\r\n\r\n", Bytes.utf8 "1\r\nx"] []
  exact ⟨hlength, haccepted, body, hwritten, fun payload left => hbody _ payload left⟩

end Projection
end RequestFeed
