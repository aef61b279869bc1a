import RequestFeed.Proofs.Request.Course
import RequestFeed.Proofs.Request.Rendering
import RequestFeed.Total
/-!
# How much a connection can say

The requests of a connection can be longer than its bytes, since a header with many values becomes
many lines with the same name. But a name has a largest length, so that there is a bound for each
byte.

*Results.*
* `RequestHead.length_render_le`, `ProjectionStage.length_body_le`: what one event adds.
* `Account.Numbered.volume_accepts`: what one frame adds to all requests.
* `Transcript.length_requests_le`: the length of all requests of a connection.
-/

namespace RequestFeed

/-! ### Pieces, digits and header blocks -/

theorem Bytes.total_pieces (separator : UInt8) (bs : Bytes) :
    total List.length (pieces separator bs) + (pieces separator bs).length = bs.length + 1 := by
  induction bs with
  | nil => rfl
  | cons b bs ih =>
    by_cases hb : b = separator
    · rw [hb, pieces_cons_separator]
      simp only [total_cons, List.length_cons, List.length_nil]
      omega
    · obtain ⟨first, rest, hrest⟩ := List.exists_cons_of_ne_nil (pieces_ne_nil separator bs)
      rw [hrest] at ih
      rw [pieces_cons hb hrest]
      simp only [total_cons, List.length_cons] at ih ⊢
      omega

theorem Hex.length_render_le (n : Nat) : (Bytes.utf8 (render n)).length ≤ n + 1 := by
  rw [render, Message.utf8_ofList]
  fun_induction digits n with
  | case1 n hn => simp [(Message.hexByte_spec n hn).1]
  | case2 n hn ih =>
    have hlast := (Message.hexByte_spec (n % 16) (Nat.mod_lt _ (by decide))).1
    rw [List.flatMap_append, List.length_append]
    simp only [List.flatMap_cons, List.flatMap_nil, hlast, List.append_nil, List.length_cons,
      List.length_nil]
    omega

theorem HeaderBlock.length_encode (headers : HeaderBlock) :
    headers.encode.length =
      2 + total (fun header => header.1.utf8ByteSize + header.2.utf8ByteSize + 4)
        headers.entries := by
  have hentry (entries : List (String × String)) : (entries.flatMap encodeEntry).length =
      total (fun header => header.1.utf8ByteSize + header.2.utf8ByteSize + 4) entries := by
    induction entries with
    | nil => rfl
    | cons header entries ih =>
      simp only [List.flatMap_cons, List.length_append, total_cons, ih, encodeEntry, encodeField,
        Bytes.length_little, Bytes.length_utf8]
      omega
  rw [encode, List.length_append, Bytes.length_little, hentry]

theorem HeaderBlock.IsWellFormed.size_get?_le {headers : HeaderBlock} (h : headers.IsWellFormed)
    {name value : String} (hget : headers.get? name = some value) :
    value.utf8ByteSize ≤ limit := by
  obtain ⟨before, after, hentries, -⟩ := List.lookup_eq_some_iff.mp hget
  exact h.valueLengths (name, value) (by simp [hentries])

/-! ### What one event adds -/

/-- How many bytes of a request one byte of a connection makes, at most. -/
def amplification : Nat := 2 * HeaderBlock.limit

namespace RequestHead

variable {headers : HeaderBlock} {chunked : Bool} {head : Bytes}

/-- The length of a header line with its end. -/
def lineSize (field : String × Bytes) : Nat := (Message.fieldLine field ++ lineEnd).length

theorem lineSize_eq (field : String × Bytes) :
    lineSize field = field.1.utf8ByteSize + field.2.length + 4 := by
  simp [lineSize, Message.fieldLine, lineEnd]
  omega

/-- A header becomes at most one line for each of its bytes, and one more. -/
theorem total_lines_le {name : String} (hname : name.utf8ByteSize ≤ HeaderBlock.limit)
    (value : String) :
    total lineSize ((Bytes.pieces 0 (Bytes.utf8 value)).map fun piece => (name, piece)) ≤
      amplification * (name.utf8ByteSize + value.utf8ByteSize + 4) := by
  have hpieces := Bytes.total_pieces 0 (Bytes.utf8 value)
  have hlines (pieces : List Bytes) :
      total lineSize (pieces.map fun piece => (name, piece)) =
        total List.length pieces + pieces.length * (name.utf8ByteSize + 4) := by
    induction pieces with
    | nil => simp
    | cons piece pieces ih =>
      simp only [List.map_cons, total_cons, lineSize_eq, ih, List.length_cons, Nat.add_mul]
      omega
  have hcount : (Bytes.pieces 0 (Bytes.utf8 value)).length * (name.utf8ByteSize + 4) ≤
      (value.utf8ByteSize + 1) * (HeaderBlock.limit + 4) := by
    refine Nat.mul_le_mul ?_ (by omega)
    rw [Bytes.length_utf8] at hpieces
    omega
  rw [hlines]
  rw [Bytes.length_utf8] at hpieces
  simp only [amplification, HeaderBlock.limit] at hcount ⊢
  omega

theorem total_forwarded_le {entries : List (String × String)}
    (h : ∀ header ∈ entries, header.1.utf8ByteSize ≤ HeaderBlock.limit) :
    total lineSize (forwarded entries) ≤ amplification *
      total (fun header => header.1.utf8ByteSize + header.2.utf8ByteSize + 4) entries := by
  induction entries with
  | nil => simp [forwarded]
  | cons header entries ih =>
    obtain ⟨hheader, hentries⟩ := List.forall_mem_cons.mp h
    have hlines := total_lines_le hheader header.2
    have hrest := ih hentries
    rw [forwarded_cons, total_append, total_cons, Nat.mul_add]
    refine Nat.add_le_add ?_ hrest
    split
    · exact hlines
    · simp

theorem length_flatMap_fieldLine (fields : List (String × Bytes)) :
    ((fields.map Message.fieldLine).flatMap (· ++ lineEnd)).length = total lineSize fields := by
  induction fields with
  | nil => rfl
  | cons field fields ih =>
    rw [List.map_cons, List.flatMap_cons, List.length_append, ih, total_cons, lineSize]

/-- The head of a request is not much longer than the frame that holds its headers. -/
theorem length_render_le (hwell : headers.IsWellFormed)
    (h : render headers chunked = .ok head) :
    head.length ≤ amplification * (Frame.headerSize + headers.encode.length) := by
  obtain ⟨method, url, version, ⟨hmethod, -⟩, ⟨hurl, -⟩, ⟨hversion, -⟩, -, rfl⟩ :=
    render_eq_ok_iff.mp h
  have hmethod := hwell.size_get?_le hmethod
  have hurl := hwell.size_get?_le hurl
  have hversion := hwell.size_get?_le hversion
  have hforwarded := total_forwarded_le hwell.nameLengths
  have hown : total lineSize (fields headers chunked) ≤
      total lineSize (forwarded headers.entries) + 28 := by
    rw [fields, total_append]
    cases chunked
    · simp
    · exact Nat.le_refl _
  rw [List.cons_append, List.flatMap_cons, List.flatMap_append, List.length_append,
    List.length_append, List.length_append, length_flatMap_fieldLine, headers.length_encode]
  simp only [List.length_append, requestLine, Bytes.length_utf8, List.length_cons,
    List.flatMap_cons, List.flatMap_nil, List.length_nil, List.append_nil, lineEnd]
  simp only [amplification, HeaderBlock.limit, Frame.headerSize] at *
  omega

end RequestHead

/-- What bytes of a body add to a request is not much longer than the frame that holds them. -/
theorem ProjectionStage.length_body_le (chunked fin : Bool) (bs : Bytes) :
    (bodyBytes chunked bs ++ if chunked && fin then lastChunk else []).length ≤
      amplification * (Frame.headerSize + bs.length) := by
  have hsize := Hex.length_render_le bs.length
  have hbody : (bodyBytes chunked bs).length ≤ 2 * bs.length + 5 := by
    unfold bodyBytes
    split
    · split
      · simp
      · simp only [chunk, List.length_append, RequestHead.lineEnd, List.length_cons,
          List.length_nil]
        omega
    · omega
  have hlast : (if chunked && fin then lastChunk else []).length ≤ 5 := by
    split
    · exact Nat.le_refl _
    · simp
  rw [List.length_append]
  simp only [amplification, HeaderBlock.limit, Frame.headerSize]
  omega

namespace StreamEvent

/-- The event can have come in a frame. -/
def IsSent : StreamEvent → Prop
  | .opened headers _ => headers.IsWellFormed
  | _ => True

/-- How many bytes an event adds to a request, at most. -/
def allowance : StreamEvent → Nat
  | .opened headers _ => amplification * (Frame.headerSize + headers.encode.length)
  | .data bs _ => amplification * (Frame.headerSize + bs.length)
  | .reset _ | .connectionFailed => 0

variable {e : StreamEvent}

theorem length_advance_le (h : e.IsSent) {stage next : ProjectionStage} {bs : Bytes}
    (ha : stage.advance e = .ok (bs, next)) : bs.length ≤ e.allowance := by
  cases stage with
  | finished =>
    obtain rfl : bs = [] := by cases e <;> cases ha <;> rfl
    exact Nat.zero_le _
  | awaitingOpening =>
    cases e with
    | opened headers fin =>
      rw [Projection.advance_opened, Except.bind_eq_ok_iff] at ha
      obtain ⟨head, hrender, hhead⟩ := ha
      cases hhead
      exact RequestHead.length_render_le h hrender
    | data | reset | connectionFailed => cases ha
  | body chunked =>
    cases e with
    | data more fin =>
      cases ha
      exact ProjectionStage.length_body_le chunked fin more
    | opened | reset | connectionFailed => cases ha

theorem length_written_step_le (h : e.IsSent) {p : Projection} (hp : p.Coherent) :
    (p.step e).1.written.length ≤ p.written.length + e.allowance := by
  cases hf : p.isFinished with
  | true =>
    rw [Projection.step_of_isFinished hf]
    exact Nat.le_add_right _ _
  | false =>
    cases ha : p.stage.advance e with
    | error cause =>
      rw [Projection.step_of_error hf ha]
      exact Nat.le_add_right _ _
    | ok answer =>
      have hadded := length_advance_le h ha
      rw [Projection.step_of_ok ((Projection.isFinished_eq_false_iff hp).mp hf) hf ha]
      simp only [Projection.written, ByteQueue.bytes_push, List.length_append]
      omega

/-- What a frame says adds at most so much to a request. -/
theorem allowance_le_of_meaning {f : Frame} (h : f.meaning = .ok (.event e)) :
    e.IsSent ∧ e.allowance ≤ amplification * f.wireSize := by
  unfold Frame.meaning at h
  split at h
  · cases h
  · cases hcode : f.code with
    | error cause => simp [hcode, Except.map] at h
    | ok code => simp [hcode, Except.map] at h
  · rw [Frame.headerBlock] at h
    cases hdecode : HeaderBlock.decode f.payload with
    | error cause => simp [hdecode, Except.map] at h
    | ok headers =>
      simp only [hdecode, Except.map, Except.ok.injEq, FrameMeaning.event.injEq] at h
      obtain ⟨hwell, hpayload⟩ := HeaderBlock.decode_eq_ok_iff.mp hdecode
      subst h
      exact ⟨hwell, by rw [allowance, Frame.wireSize, hpayload]⟩
  · cases h
    exact ⟨trivial, Nat.le_refl _⟩
  · cases hcode : f.code with
    | error cause => simp [hcode, Except.map] at h
    | ok code =>
      simp only [hcode, Except.map, Except.ok.injEq, FrameMeaning.event.injEq] at h
      subst h
      exact ⟨trivial, Nat.zero_le _⟩

end StreamEvent

/-! ### What frames add -/

namespace Account

/-- The number of bytes of all requests. -/
def volume (ps : Account) : Nat := total (fun p => p.written.length) ps

/-- The requests belong to streams of their own, with numbers that have been seen. -/
structure Numbered (highest : StreamId) (ps : Account) : Prop where
  distinct : (ps.map Projection.stream).Nodup
  bounded : ∀ p ∈ ps, p.stream ≤ highest

variable {ps : Account} {highest stream : StreamId} {e : StreamEvent}

theorem length_flatMap_written (ps : Account) :
    (ps.flatMap Projection.written).length = volume ps := by
  induction ps with
  | nil => rfl
  | cons p ps ih => rw [List.flatMap_cons, List.length_append, ih, volume, volume, total_cons]

theorem map_stream_record_event (stream : StreamId) (e : StreamEvent) (ps : Account) :
    (record (.event stream e) ps).map Projection.stream = ps.map Projection.stream := by
  simp [record, fresh, Function.comp_def]

theorem Numbered.record_event (h : Numbered highest ps) (stream : StreamId) (e : StreamEvent) :
    Numbered highest (record (.event stream e) ps) := by
  constructor
  · rw [map_stream_record_event]
    exact h.distinct
  · intro p hp
    have hstream := List.mem_map_of_mem (f := Projection.stream) hp
    rw [map_stream_record_event] at hstream
    obtain ⟨q, hq, heq⟩ := List.mem_map.mp hstream
    exact heq ▸ h.bounded q hq

theorem record_created (stream : StreamId) (ps : Account) :
    record (.created stream) ps = ps ++ fresh (.created stream) := by
  have hsame : ps.map (·.hear (.created stream)) = ps := List.map_id _
  rw [record, hsame]

theorem Numbered.record_created (h : Numbered highest ps) (hlater : ¬ stream ≤ highest) :
    Numbered stream (record (.created stream) ps) := by
  have hlt : ∀ p ∈ ps, p.stream < stream := fun p hp =>
    UInt32.lt_of_le_of_lt (h.bounded p hp) (UInt32.not_le.mp hlater)
  rw [Account.record_created]
  constructor
  · rw [List.map_append, List.nodup_append]
    refine ⟨h.distinct, by simp [fresh], ?_⟩
    intro first hfirst last hlast heq
    obtain ⟨p, hp, rfl⟩ := List.mem_map.mp hfirst
    obtain rfl : last = stream := by simpa [fresh] using hlast
    exact UInt32.lt_irrefl _ (heq ▸ hlt p hp)
  · intro p hp
    rcases List.mem_append.mp hp with hold | hnew
    · exact UInt32.le_of_lt (hlt p hold)
    · rw [List.mem_singleton.mp hnew]
      exact UInt32.le_refl stream

theorem volume_record_created (stream : StreamId) (ps : Account) :
    volume (record (.created stream) ps) = volume ps := by
  rw [record_created, volume, total_append]
  rfl

/-- An event adds to one request only, since no two requests belong to one stream. -/
theorem volume_record_event_le (hd : (ps.map Projection.stream).Nodup) (hc : Coherent ps)
    (he : e.IsSent) (stream : StreamId) :
    volume (record (.event stream e) ps) ≤ volume ps + e.allowance := by
  induction ps with
  | nil => exact Nat.zero_le _
  | cons p ps ih =>
    rw [List.map_cons, List.nodup_cons] at hd
    obtain ⟨hp, hps⟩ := List.forall_mem_cons.mp hc
    rw [record_cons, volume, volume, total_cons, total_cons, ← volume, ← volume]
    by_cases hs : p.stream = stream
    · have hothers : record (.event stream e) ps = ps := by
        rw [record, fresh, List.append_nil]
        refine (List.map_congr_left fun q hq => if_neg fun hsame => hd.1 ?_).trans (List.map_id _)
        exact List.mem_map.mpr ⟨q, hq, hsame.trans hs.symm⟩
      have hstep := StreamEvent.length_written_step_le he hp
      rw [hothers, Projection.hear, if_pos hs]
      omega
    · have hrest := ih hd.2 hps
      rw [Projection.hear, if_neg hs]
      omega

/-- A frame that is accepted adds to the requests in proportion to its size. -/
theorem Numbered.volume_accepts {r r' : Router} {f : Frame} {ds : List Delivery}
    (h : Numbered r.highest ps) (hc : Coherent ps) (ha : r.Accepts f ds r') :
    Numbered r'.highest (recordAll ds ps) ∧
      volume (recordAll ds ps) ≤ volume ps + amplification * f.wireSize := by
  cases ha with
  | nothing | goAway | late => exact ⟨h, Nat.le_add_right _ _⟩
  | @known e hmeaning =>
    obtain ⟨hsent, hallowance⟩ := StreamEvent.allowance_le_of_meaning hmeaning
    have hvolume := volume_record_event_le h.distinct hc hsent f.stream
    rw [Router.highest_settle]
    exact ⟨h.record_event f.stream e, Nat.le_trans hvolume (by omega)⟩
  | @fresh e hmeaning hlater =>
    obtain ⟨hsent, hallowance⟩ := StreamEvent.allowance_le_of_meaning hmeaning
    have hcreated := h.record_created hlater
    have hvolume := volume_record_event_le hcreated.distinct (hc.record (.created f.stream)) hsent
      f.stream
    rw [volume_record_created] at hvolume
    rw [Router.highest_settle]
    exact ⟨hcreated.record_event f.stream e, Nat.le_trans hvolume (by omega)⟩

/-- That the connection has failed adds nothing. -/
theorem Numbered.volume_fail_le (h : Numbered highest ps) (hc : Coherent ps)
    (live : List StreamId) :
    volume (recordAll (live.map fun stream => .event stream .connectionFailed) ps) ≤
      volume ps := by
  induction live generalizing ps with
  | nil => exact Nat.le_refl _
  | cons stream live ih =>
    have hfirst := volume_record_event_le (e := .connectionFailed) h.distinct hc trivial stream
    exact Nat.le_trans (ih (h.record_event stream _) (hc.record _)) hfirst

end Account

theorem Frame.total_decodeAll_le (max : Nat) (buffer : Bytes) :
    total wireSize (decodeAll max buffer).1 ≤ buffer.length := by
  fun_induction decodeAll max buffer with
  | case1 | case2 => exact Nat.zero_le _
  | case3 buffer f rest hd frames ending left hrest ih =>
    rw [length_eq_of_decode_eq_frame hd, total_cons]
    rw [hrest] at ih
    exact Nat.add_le_add_left ih _

namespace Transcript

theorem volume_ofFrames_le (ending : Frame.Ending) {r : Router} {ps : Account}
    (frames : List Frame) (h : ps.Numbered r.highest) (hc : ps.Coherent) :
    Account.volume (Account.recordAll (ofFrames ending r frames).deliveries ps) ≤
      ps.volume + amplification * total Frame.wireSize frames := by
  induction frames generalizing r ps with
  | nil =>
    cases ending with
    | incomplete => exact Nat.le_add_right _ _
    | rejected e => exact Nat.le_trans (h.volume_fail_le hc r.live) (Nat.le_add_right _ _)
  | cons f rest ih =>
    rw [ofFrames]
    cases hd : r.dispatch f with
    | error e => exact Nat.le_trans (h.volume_fail_le hc r.live) (Nat.le_add_right _ _)
    | ok answer =>
      obtain ⟨hnumbered, hvolume⟩ := h.volume_accepts hc (Router.accepts_of_dispatch hd)
      have hrest := ih hnumbered (hc.recordAll _)
      rw [deliveries_after, Account.recordAll_append, total_cons, Nat.mul_add]
      omega

/-- The length of all requests of a connection is bounded by the number of its bytes. -/
theorem length_requests_le (max : Nat) (bs : Bytes) :
    ((ofBytes max bs).requests.flatMap Projection.written).length ≤
      amplification * bs.length := by
  have hnumbered : Account.Numbered ({} : Router).highest [] := ⟨List.nodup_nil, nofun⟩
  have hvolume := volume_ofFrames_le (Frame.decodeAll max bs).2.1 (Frame.decodeAll max bs).1
    hnumbered nofun
  rw [Account.length_flatMap_written]
  refine Nat.le_trans hvolume ?_
  rw [Account.volume, total_nil, Nat.zero_add]
  exact Nat.mul_le_mul_left _ (Frame.total_decodeAll_le max bs)

end Transcript
end RequestFeed
