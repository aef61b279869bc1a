import RequestFeed.Proofs.Request.Delimiting
/-!
# Heads that cannot be broken

What a peer puts into its headers cannot add a line to the head of its request, or a part to the
request line. A head is taken apart here in the plainest way: at line ends, at spaces, at the first
colon with a space, and at NUL.

*Results.*
* `Bytes.pieces_eq_splitOn`: how values are separated.
* `RequestHead.render_eq_error_iff`: when headers have no head.
* `RequestHead.readsAs_render`: a head is taken apart into what the headers said.
* `RequestHead.render_unbreakable`: the same for all headers that can be inserted, and that at most
  one of them says where the body ends.
-/

namespace RequestFeed

theorem Bytes.pieces_eq_splitOn (separator : UInt8) (bs : Bytes) :
    pieces separator bs = bs.splitOn separator := by
  induction bs with
  | nil => simp [pieces]
  | cons b bs ih =>
    rw [List.splitOn_eq_splitOnP, List.splitOnP_cons_eq_if_modifyHead,
      ← List.splitOn_eq_splitOnP, ← ih]
    by_cases hb : b = separator
    · rw [hb, pieces_cons_separator, beq_self_eq_true, if_pos rfl]
    · obtain ⟨first, rest, hrest⟩ := List.exists_cons_of_ne_nil (pieces_ne_nil separator bs)
      rw [pieces_cons hb hrest, beq_eq_false_iff_ne.mpr hb, hrest]
      rfl

/-! ### Taking heads apart -/

namespace Message

/-- The lines of some bytes, without their ends, and what follows the last line end. -/
def lines (bs : Bytes) : List Bytes × Bytes :=
  match _h : line? bs with
  | none => ([], bs)
  | some (line, rest) => (line :: (lines rest).1, (lines rest).2)
termination_by bs.length
decreasing_by all_goals exact length_lt_of_line? _h

/-- What stands before the first colon with a space, and what follows the two. -/
def nameValue? : Bytes → Option (Bytes × Bytes)
  | [] => none
  | 0x3a :: 0x20 :: value => some ([], value)
  | b :: rest => (nameValue? rest).map fun (name, value) => (b :: name, value)

/-- A header line with this name, in any case of its letters, as far as the first colon. -/
def isField (name : String) (line : Bytes) : Bool :=
  (line.takeWhile (· ≠ 0x3a)).map lower = Bytes.utf8 name

theorem lines_of_line {bs line rest : Bytes} (h : line? bs = some (line, rest)) :
    lines bs = (line :: (lines rest).1, (lines rest).2) := by
  rw [lines]
  split <;> simp_all

theorem lines_flatMap {ls : List Bytes} (h : ∀ line ∈ ls, 0x0d ∉ line) :
    lines (ls.flatMap (· ++ RequestHead.lineEnd)) = (ls, []) := by
  induction ls with
  | nil => simp [lines, line?]
  | cons line ls ih =>
    obtain ⟨hline, hls⟩ := List.forall_mem_cons.mp h
    rw [List.flatMap_cons, List.append_assoc, lines_of_line (line?_append hline _), ih hls]

theorem nameValue?_append {name : Bytes} (h : 0x3a ∉ name) (value : Bytes) :
    nameValue? (name ++ 0x3a :: 0x20 :: value) = some (name, value) := by
  induction name with
  | nil => rfl
  | cons b name ih =>
    rw [List.mem_cons, not_or] at h
    rw [List.cons_append, nameValue?, ih h.2]
    · rfl
    · exact fun _ hb => absurd hb.symm h.1

section

variable {name : String} (h : HeaderBlock.IsName name)
include h

theorem nameValue?_fieldLine (value : Bytes) :
    nameValue? (fieldLine (name, value)) = some (Bytes.utf8 name, value) := by
  have hcolon : 0x3a ∉ Bytes.utf8 name := fun hmem => h.noColon _ hmem rfl
  rw [fieldLine, List.append_assoc]
  exact nameValue?_append hcolon value

theorem isField_fieldLine (other : String) (value : Bytes) :
    isField other (fieldLine (name, value)) = decide (name = other) := by
  simp only [isField, takeWhile_fieldLine h, map_lower_name h, Bytes.utf8_inj]

end

end Message

namespace RequestHead

/-! ### What makes a head impossible -/

/-- Headers that have no head: a part of the request line is missing or cannot be one, or the value
of a header that becomes lines would break them. -/
inductive Unrenderable (headers : HeaderBlock) : Prop
  | missing (name : String) (hname : name ∈ lineNames) (hget : headers.get? name = none)
  | invalid (name value : String) (hname : name ∈ lineNames)
      (hget : headers.get? name = some value) (hvalue : ¬IsPart value)
  | broken (name value : String) (hmem : (name, value) ∈ headers.entries)
      (hname : name ∉ lineNames) (hhop : name ∉ hopNames) (hvalue : ¬IsUnbroken value)

variable {headers : HeaderBlock} {chunked : Bool} {head : Bytes}

/-- Headers without reason against it have all parts of the request line. -/
theorem exists_part_of_not (h : ¬Unrenderable headers) (name : String) (hname : name ∈ lineNames) :
    ∃ value, headers.get? name = some value ∧ IsPart value := by
  cases hget : headers.get? name with
  | none => exact absurd (.missing name hname hget) h
  | some value =>
    exact ⟨value, rfl, not_not.mp fun hvalue => h (.invalid name value hname hget hvalue)⟩

theorem render_eq_error_iff :
    (∃ cause, render headers chunked = .error cause) ↔ Unrenderable headers := by
  constructor
  · rintro ⟨cause, hcause⟩
    by_contra hnot
    obtain ⟨method, hmethod⟩ := exists_part_of_not hnot methodName (by decide)
    obtain ⟨url, hurl⟩ := exists_part_of_not hnot urlName (by decide)
    obtain ⟨version, hversion⟩ := exists_part_of_not hnot versionName (by decide)
    have hvalues : ∀ header ∈ headers.entries, isForwarded header.1 = true →
        IsUnbroken header.2 := by
      intro header hmem hforwarded
      obtain ⟨hline, hhop⟩ := isForwarded_iff.mp hforwarded
      exact not_not.mp fun hvalue => hnot (.broken header.1 header.2 hmem hline hhop hvalue)
    have hok : render headers chunked = .ok _ := render_eq_ok_iff.mpr
      ⟨method, url, version, hmethod, hurl, hversion, hvalues, rfl⟩
    rw [hcause] at hok
    cases hok
  · intro h
    cases hrender : render headers chunked with
    | error cause => exact ⟨cause, rfl⟩
    | ok head =>
      obtain ⟨method, url, version, hmethod, hurl, hversion, hvalues, -⟩ :=
        render_eq_ok_iff.mp hrender
      have hparts : ∀ name ∈ lineNames, ∃ value, headers.get? name = some value ∧ IsPart value := by
        simpa [lineNames] using ⟨⟨method, hmethod⟩, ⟨url, hurl⟩, ⟨version, hversion⟩⟩
      cases h with
      | missing name hname hget =>
        obtain ⟨value, hvalue, -⟩ := hparts name hname
        rw [hget] at hvalue
        cases hvalue
      | invalid name value hname hget hinvalid =>
        obtain ⟨own, hown, hpart⟩ := hparts name hname
        rw [hget, Option.some.injEq] at hown
        exact absurd (hown ▸ hpart) hinvalid
      | broken name value hmem hline hhop hbroken =>
        exact absurd (hvalues _ hmem (isForwarded_iff.mpr ⟨hline, hhop⟩)) hbroken

/-! ### Reading heads back -/

/-- The names and values of the header lines that some headers ask for: for each header that is
neither a part of the request line nor for one hop only, what NUL separates in its value. -/
def requested (headers : HeaderBlock) (chunked : Bool) : List (Bytes × Bytes) :=
  ((headers.entries.filter fun header => header.1 ∉ lineNames ∧ header.1 ∉ hopNames).flatMap
    fun header => ((Bytes.utf8 header.2).splitOn 0).map fun part => (Bytes.utf8 header.1, part)) ++
    if chunked then [(Bytes.utf8 "transfer-encoding", Bytes.utf8 "chunked")] else []

/-- Cut at its line ends, a head is the request line, the header lines and an empty line at the very
end, and no line holds a part of a line end. Cut at spaces, the request line gives what the headers
say, and so does each header line, cut at the first colon with a space. -/
structure ReadsAs (head : Bytes) (headers : HeaderBlock) (chunked : Bool) (first : Bytes)
    (others : List Bytes) : Prop where
  lines : Message.lines head = (first :: others ++ [[]], [])
  joined : head = (first :: others ++ [[]]).flatMap (· ++ lineEnd)
  unbroken : ∀ line ∈ first :: others, line ≠ [] ∧ 0x0d ∉ line ∧ 0x0a ∉ line
  parts : ∃ method url version, headers.get? methodName = some method ∧
    headers.get? urlName = some url ∧ headers.get? versionName = some version ∧
    method ≠ "" ∧ url ≠ "" ∧ version ≠ "" ∧
    first.splitOn 0x20 = [Bytes.utf8 method, Bytes.utf8 url, Bytes.utf8 version]
  fields : others.map Message.nameValue? = (requested headers chunked).map some

theorem requested_eq (headers : HeaderBlock) (chunked : Bool) :
    requested headers chunked =
      (fields headers chunked).map fun field => (Bytes.utf8 field.1, field.2) := by
  have hfilter : (fun header : String × String =>
      decide (header.1 ∉ lineNames ∧ header.1 ∉ hopNames)) =
        fun header => isForwarded header.1 := by
    funext header
    rw [Bool.eq_iff_iff, decide_eq_true_iff, isForwarded_iff]
  rw [requested, fields, forwarded, hfilter]
  simp only [← Bytes.pieces_eq_splitOn, List.map_append, List.map_flatMap, List.map_map]
  cases chunked <;> rfl

theorem splitOn_requestLine {method url version : String} (hmethod : IsPart method)
    (hurl : IsPart url) (hversion : IsPart version) :
    (requestLine method url version).splitOn 0x20 =
      [Bytes.utf8 method, Bytes.utf8 url, Bytes.utf8 version] := by
  have hspace : IsWhite 0x20 := .inl rfl
  have hline : requestLine method url version =
      [0x20].intercalate [Bytes.utf8 method, Bytes.utf8 url, Bytes.utf8 version] := by
    simp [requestLine, List.intercalate]
  rw [hline]
  refine List.splitOn_intercalate 0x20 ?_ (by simp)
  simpa using ⟨hmethod.not_mem hspace, hurl.not_mem hspace, hversion.not_mem hspace⟩

/-- A head is taken apart into what the headers said. -/
theorem readsAs_render (hwell : headers.IsWellFormed) (h : render headers chunked = .ok head) :
    ∃ first, ReadsAs head headers chunked first
      ((fields headers chunked).map Message.fieldLine) := by
  obtain ⟨method, url, version, ⟨hgetMethod, hmethod⟩, ⟨hgetUrl, hurl⟩, ⟨hgetVersion, hversion⟩,
    hvalues, rfl⟩ := render_eq_ok_iff.mp h
  have hunbroken := unbroken_lines hwell chunked hmethod hurl hversion hvalues
  refine ⟨requestLine method url version, ?_, rfl, hunbroken, ?_, ?_⟩
  · refine Message.lines_flatMap (List.forall_mem_append.mpr ⟨?_, by simp⟩)
    exact fun line hline => (hunbroken line hline).2.1
  · exact ⟨method, url, version, hgetMethod, hgetUrl, hgetVersion, hmethod.nonempty, hurl.nonempty,
      hversion.nonempty, splitOn_requestLine hmethod hurl hversion⟩
  · rw [requested_eq, List.map_map, List.map_map]
    refine List.map_congr_left fun field hfield => ?_
    exact Message.nameValue?_fieldLine (isName_of_mem_fields hwell hfield) field.2

/-! ### Where the body ends -/

theorem filter_isField (hwell : headers.IsWellFormed) (name : String) :
    ((fields headers chunked).map Message.fieldLine).filter (Message.isField name) =
      ((fields headers chunked).filter fun field => field.1 = name).map Message.fieldLine := by
  rw [List.filter_map]
  refine congrArg _ (List.filter_congr fun field hfield => ?_)
  exact Message.isField_fieldLine (isName_of_mem_fields hwell hfield) name field.2

/-- No transfer coding comes from the headers. -/
theorem filter_coding (hwell : headers.IsWellFormed) (chunked : Bool) :
    ((fields headers chunked).map Message.fieldLine).filter
        (Message.isField "transfer-encoding") =
      if chunked then [Bytes.utf8 "transfer-encoding: chunked"] else [] := by
  rw [filter_isField hwell, fields, List.filter_append,
    Message.filter_forwarded_of_not (by decide)]
  cases chunked
  · rfl
  · decide

/-- A head of a body whose length was not announced does not announce one. -/
theorem filter_length (hwell : headers.IsWellFormed) (hnone : headers.get? lengthName = none) :
    ((fields headers chunked).map Message.fieldLine).filter (Message.isField lengthName) = [] := by
  have hlookup : headers.entries.lookup lengthName = none := hnone
  rw [filter_isField hwell, fields, List.filter_append,
    Message.filter_forwarded (by decide) hwell.distinct, hlookup]
  cases chunked
  · rfl
  · decide

/-- The header lines of a request whose stream was opened with some headers: no more than one kind
of them says where the body ends, and none about codings comes from the headers. -/
structure Delimits (headers : HeaderBlock) (fin : Bool) (others : List Bytes) : Prop where
  codings : others.filter (Message.isField "transfer-encoding") =
    if Projection.isChunked headers fin then [Bytes.utf8 "transfer-encoding: chunked"] else []
  exclusive : (∃ line ∈ others, Message.isField lengthName line = true) →
    ∀ line ∈ others, Message.isField "transfer-encoding" line = false

theorem delimits_fields (hwell : headers.IsWellFormed) (fin : Bool) :
    Delimits headers fin
      ((fields headers (Projection.isChunked headers fin)).map Message.fieldLine) := by
  have hcodings := filter_coding hwell (Projection.isChunked headers fin)
  refine ⟨hcodings, ?_⟩
  rintro ⟨line, hmem, hline⟩
  cases hchunked : Projection.isChunked headers fin with
  | false =>
    rw [hchunked, if_neg Bool.false_ne_true, List.filter_eq_nil_iff] at hcodings
    exact fun other hother => Bool.eq_false_iff.mpr (hcodings other hother)
  | true =>
    have hnone : headers.get? lengthName = none :=
      (Projection.isChunked_eq_true_iff.mp hchunked).2
    have hlengths := List.filter_eq_nil_iff.mp (filter_length hwell hnone) line hmem
    exact absurd hline hlengths

/--
Headers that can be inserted have no head exactly when there is a reason against it. If they have
one, it is taken apart into what the headers said, whatever their values hold. The head that opens
a request has no field about codings but the one that announces chunks, and then it announces no
length.
-/
theorem render_unbreakable (offered : List (String × String)) (chunked : Bool) :
    ((∃ cause, render (HeaderBlock.offerAll offered {}) chunked = .error cause) ↔
        Unrenderable (HeaderBlock.offerAll offered {})) ∧
      (∀ head, render (HeaderBlock.offerAll offered {}) chunked = .ok head →
        ∃ first others, ReadsAs head (HeaderBlock.offerAll offered {}) chunked first others) ∧
      ∀ fin head stage, ProjectionStage.awaitingOpening.advance
          (.opened (HeaderBlock.offerAll offered {}) fin) = .ok (head, stage) →
        ∃ first others, ReadsAs head (HeaderBlock.offerAll offered {})
            (Projection.isChunked (HeaderBlock.offerAll offered {}) fin) first others ∧
          Delimits (HeaderBlock.offerAll offered {}) fin others := by
  have hwell := HeaderBlock.isWellFormed_empty.offerAll offered
  generalize HeaderBlock.offerAll offered {} = headers at hwell ⊢
  refine ⟨render_eq_error_iff, fun head h => ?_, fun fin head stage h => ?_⟩
  · obtain ⟨first, hreads⟩ := readsAs_render hwell h
    exact ⟨first, _, hreads⟩
  · rw [Projection.advance_opened, Except.bind_eq_ok_iff] at h
    obtain ⟨own, hrender, hown⟩ := h
    cases hown
    obtain ⟨first, hreads⟩ := readsAs_render hwell hrender
    exact ⟨first, _, hreads, delimits_fields hwell fin⟩

end RequestHead
end RequestFeed
