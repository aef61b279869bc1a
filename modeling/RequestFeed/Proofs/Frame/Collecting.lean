import RequestFeed.Proofs.Frame.Reading
import RequestFeed.Proofs.Read.Content
/-!
# Collecting frames

Over a reader that never fails, a frame reader hands out what decoding finds in the content,
whatever pieces the content comes in. In the wire forms of frames it finds these frames again, up
to the first one whose header does not pass the check.

*Results.*
* `Frame.decodeAll_flatMap_bytes`: decoding what was written without a check.
* `FrameReader.collect_of_gives`: collecting is decoding of the whole content.
* `FrameReader.collect_flatMap_bytes`: collecting what was written without a check.
-/

namespace RequestFeed

namespace Frame

/-- How frame readers tell the end of a content: bytes that are left are an error. -/
def Ending.failure? (left : Bytes) : Ending → Option FrameError
  | .incomplete => if left = [] then none else some .connectionClosed
  | .rejected e => some e

/-! ### Wire forms that were not checked -/

variable {max : Nat} {f : Frame} {frames : List Frame}

/-- The header of a frame with a wire form that is not valid fails its check. -/
theorem check_header_of_not_isValid (h : ¬ f.IsValid max) (hl : f.payload.length ≤ maxEncodable) :
    ∃ e, Header.check max f.header = .error e := by
  cases hc : Header.check max f.header with
  | error e => exact ⟨e, rfl⟩
  | ok header =>
    obtain rfl := (Header.check_eq_ok_iff.mp hc).1
    exact absurd (isValid_iff.mpr ⟨hc, hl⟩) h

/-- A wire form whose header fails its check is rejected for that, whatever follows it. -/
theorem decode_bytes_append_of_error {e : FrameError} (hl : f.payload.length ≤ maxEncodable)
    (hc : Header.check max f.header = .error e) (rest : Bytes) :
    decode max (f.bytes ++ rest) = .rejected e := by
  have hfront : Bytes.cut? headerSize (f.bytes ++ rest) =
      some (f.header.bytes, f.payload ++ rest) := by
    rw [Bytes.cut?_eq_some_iff, bytes_eq, List.append_assoc]
    exact ⟨rfl, Header.length_bytes _⟩
  have hheader : Header.decode max f.header.bytes = .error e := by
    rw [Header.decode_bytes hl, hc]
  simp only [decode, hfront, hheader]

/-- Decoding finds the frames that were written, up to the first one that is not valid. -/
theorem decodeAll_flatMap_bytes (hl : ∀ f ∈ frames, f.payload.length ≤ maxEncodable) :
    (decodeAll max (frames.flatMap bytes)).1 =
        frames.takeWhile (fun f => decide (f.IsValid max)) ∧
      ((decodeAll max (frames.flatMap bytes)).2.1.failure?
          (decodeAll max (frames.flatMap bytes)).2.2 = none ↔ ∀ f ∈ frames, f.IsValid max) := by
  induction frames with
  | nil =>
    rw [List.flatMap_nil, decodeAll_of_incomplete rfl]
    simp [Ending.failure?]
  | cons f rest ih =>
    have hf := hl f List.mem_cons_self
    obtain ⟨hframes, hending⟩ := ih fun g hg => hl g (List.mem_cons_of_mem f hg)
    rw [List.flatMap_cons]
    by_cases hv : f.IsValid max
    · rw [decodeAll_of_frame (decode_eq_frame_iff.mpr ⟨hv, rfl⟩)]
      simp only [hframes, hending, List.takeWhile_cons, hv, decide_true, if_true,
        List.forall_mem_cons, true_and, and_self]
    · obtain ⟨e, he⟩ := check_header_of_not_isValid hv hf
      rw [decodeAll_of_rejected (decode_bytes_append_of_error hf he _)]
      simp [Ending.failure?, hv]

end Frame

/-! ### Frame readers -/

namespace FrameReader

variable {ρ : Type} [Reader ρ] {s : FrameReader ρ} {content : Bytes}

/-- One call over a reader with a content, in terms of all bytes that are still to come. -/
theorem next?_of_gives (h : Reader.Gives s.reader content) :
    match Frame.decode s.maxPayload (s.backlog.bytes ++ content) with
    | .incomplete =>
      s.next?.1 = if s.backlog.bytes ++ content = [] then .ok none else .error .connectionClosed
    | .rejected e => s.next?.1 = .error e
    | .frame f rest =>
      s.next?.1 = .ok (some f) ∧ s.next?.2.maxPayload = s.maxPayload ∧
        ∃ more, Reader.Gives s.next?.2.reader more ∧ s.next?.2.backlog.bytes ++ more = rest := by
  -- The induction is on how much the reader has still to give.
  induction hn : content.length using Nat.strongRecOn generalizing s content with
  | ind n ih =>
    subst hn
    cases hd : Frame.decode s.maxPayload s.backlog.bytes with
    | rejected e =>
      rw [Frame.decode_append_of_ne_incomplete (by simp [hd]), next?_eq, hd]
      rfl
    | frame f rest =>
      rw [Frame.decode_append_of_ne_incomplete (by simp [hd]), next?_eq, hd]
      exact ⟨rfl, rfl, content, h, by simp⟩
    | incomplete =>
      obtain ⟨bs, rest, hok, rfl, hnil, hrest⟩ := h.read (n := chunk) (by decide)
      rw [next?_eq, hd]
      cases bs with
      | nil =>
        rw [hnil rfl, List.append_nil, hd]
        simp only [hok]
      | cons b bs =>
        simp only [hok]
        have hcall := ih rest.length (by simp only [List.length_append, List.length_cons]; omega)
          (s := { s with
            reader := (Reader.read chunk s.reader).2, backlog := s.backlog.push (b :: bs) })
          hrest rfl
        simpa only [ByteQueue.bytes_push, List.append_assoc] using hcall

theorem collect_of_end (h : s.next?.1 = .ok none) : s.collect = ([], none, s.next?.2) := by
  rw [collect]
  split <;> simp_all

theorem collect_of_error {e : FrameError} (h : s.next?.1 = .error e) :
    s.collect = ([], some e, s.next?.2) := by
  rw [collect]
  split <;> simp_all

theorem collect_of_frame {f : Frame} (h : s.next?.1 = .ok (some f)) :
    s.collect = (f :: s.next?.2.collect.1, s.next?.2.collect.2) := by
  rw [collect]
  split <;> simp_all

/-- Collecting frames from a content is decoding all of it. -/
theorem collect_of_gives (h : Reader.Gives s.reader content) :
    s.collect.1 = (Frame.decodeAll s.maxPayload (s.backlog.bytes ++ content)).1 ∧
      s.collect.2.1 =
        (Frame.decodeAll s.maxPayload (s.backlog.bytes ++ content)).2.1.failure?
          (Frame.decodeAll s.maxPayload (s.backlog.bytes ++ content)).2.2 := by
  generalize hb : s.backlog.bytes ++ content = buffer
  generalize hm : s.maxPayload = max
  fun_induction Frame.decodeAll max buffer generalizing s content with
  | case1 buffer hd =>
    have hcall := next?_of_gives h
    simp only [hb, hm, hd] at hcall
    simp only [Frame.Ending.failure?]
    by_cases he : buffer = []
    · rw [if_pos he] at hcall
      rw [collect_of_end hcall, if_pos he]
      exact ⟨rfl, rfl⟩
    · rw [if_neg he] at hcall
      rw [collect_of_error hcall, if_neg he]
      exact ⟨rfl, rfl⟩
  | case2 buffer e hd =>
    have hcall := next?_of_gives h
    simp only [hb, hm, hd] at hcall
    rw [collect_of_error hcall]
    exact ⟨rfl, rfl⟩
  | case3 buffer f rest hd frames ending left hrest ih =>
    have hcall := next?_of_gives h
    simp only [hb, hm, hd] at hcall
    obtain ⟨hframe, hmax, more, hgives, hbytes⟩ := hcall
    obtain ⟨hframes, hending⟩ := ih hgives hbytes hmax
    rw [hrest] at hframes hending
    rw [collect_of_frame hframe, hframes, hending]
    exact ⟨rfl, rfl⟩

/-- Frames that were written without a check are read up to the first one that is not valid. -/
theorem collect_flatMap_bytes {r : ρ} {frames : List Frame} (max : Nat)
    (h : Reader.Gives r (frames.flatMap Frame.bytes))
    (hl : ∀ f ∈ frames, f.payload.length ≤ Frame.maxEncodable) :
    (collect { reader := r, maxPayload := max }).1 =
        frames.takeWhile (fun f => decide (f.IsValid max)) ∧
      ((collect { reader := r, maxPayload := max }).2.1 = none ↔ ∀ f ∈ frames, f.IsValid max) := by
  obtain ⟨hframes, hending⟩ := collect_of_gives (s := { reader := r, maxPayload := max }) h
  simp only [ByteQueue.bytes_empty, List.nil_append] at hframes hending
  rw [hframes, hending]
  exact Frame.decodeAll_flatMap_bytes hl

end FrameReader
end RequestFeed
