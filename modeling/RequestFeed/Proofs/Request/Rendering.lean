import RequestFeed.Proofs.Request.Message
/-!
# When headers have a head

A head is made of the three parts of the request line and of header lines, one for each piece of
the value of a header that is forwarded. It cannot be made when a part is missing or holds what
would break the request line, or when a value holds what would break a header line.

*Results.*
* `RequestHead.render_eq_ok_iff`: when headers have a head, and which.
* `RequestHead.unbroken_lines`: no line of a head holds a part of a line end.
-/

namespace RequestFeed

/-! ### Pieces -/

namespace Bytes

theorem pieces_ne_nil (separator : UInt8) (bs : Bytes) : pieces separator bs ≠ [] := by
  cases bs with
  | nil => simp [pieces]
  | cons b bs =>
    simp only [pieces, List.foldr_cons]
    split
    · simp
    · split <;> simp

theorem pieces_cons_separator (separator : UInt8) (bs : Bytes) :
    pieces separator (separator :: bs) = [] :: pieces separator bs := by
  simp [pieces]

/-- A byte that is no separator belongs to the first piece. -/
theorem pieces_cons {separator b : UInt8} {bs first : Bytes} {rest : List Bytes}
    (hb : b ≠ separator) (h : pieces separator bs = first :: rest) :
    pieces separator (b :: bs) = (b :: first) :: rest := by
  rw [pieces] at h ⊢
  rw [List.foldr_cons, h, if_neg hb]

theorem mem_of_mem_pieces {separator b : UInt8} {bs piece : Bytes}
    (hp : piece ∈ pieces separator bs) (hb : b ∈ piece) : b ∈ bs := by
  induction bs generalizing piece with
  | nil =>
    obtain rfl : piece = [] := by simpa [pieces] using hp
    simp at hb
  | cons c bs ih =>
    by_cases hc : c = separator
    · rw [hc, pieces_cons_separator] at hp
      rcases List.mem_cons.mp hp with rfl | hp
      · simp at hb
      · exact List.mem_cons_of_mem c (ih hp hb)
    · obtain ⟨first, rest, hrest⟩ := List.exists_cons_of_ne_nil (pieces_ne_nil separator bs)
      rw [pieces_cons hc hrest] at hp
      rw [hrest] at ih
      rcases List.mem_cons.mp hp with rfl | hp
      · rcases List.mem_cons.mp hb with rfl | hb
        · exact List.mem_cons_self
        · exact List.mem_cons_of_mem c (ih List.mem_cons_self hb)
      · exact List.mem_cons_of_mem c (ih (List.mem_cons_of_mem first hp) hb)

end Bytes

/-! ### Header lines -/

namespace RequestHead

/-- The names and values of the header lines that some headers become. -/
def forwarded (entries : List (String × String)) : List (String × Bytes) :=
  (entries.filter fun header => isForwarded header.1).flatMap fun header =>
    (Bytes.pieces 0 (Bytes.utf8 header.2)).map fun piece => (header.1, piece)

/-- The names and values of all header lines of a request. -/
def fields (headers : HeaderBlock) (chunked : Bool) : List (String × Bytes) :=
  forwarded headers.entries ++
    if chunked then [("transfer-encoding", Bytes.utf8 "chunked")] else []

theorem forwarded_cons (name value : String) (entries : List (String × String)) :
    forwarded ((name, value) :: entries) =
      (if isForwarded name then
        (Bytes.pieces 0 (Bytes.utf8 value)).map fun piece => (name, piece) else []) ++
        forwarded entries := by
  cases h : isForwarded name <;> simp [forwarded, h]

theorem isName_of_mem_forwarded {headers : HeaderBlock} (h : headers.IsWellFormed)
    {field : String × Bytes} (hmem : field ∈ forwarded headers.entries) :
    HeaderBlock.IsName field.1 := by
  obtain ⟨header, hheader, hpiece⟩ := List.mem_flatMap.mp hmem
  obtain ⟨piece, -, rfl⟩ := List.mem_map.mp hpiece
  exact h.names header (List.mem_filter.mp hheader).1

theorem isName_of_mem_fields {headers : HeaderBlock} (h : headers.IsWellFormed) {chunked : Bool}
    {field : String × Bytes} (hmem : field ∈ fields headers chunked) :
    HeaderBlock.IsName field.1 := by
  rcases List.mem_append.mp hmem with hmem | hmem
  · exact isName_of_mem_forwarded h hmem
  · cases chunked with
    | false => simp at hmem
    | true =>
      obtain rfl := List.mem_singleton.mp hmem
      exact HeaderBlock.isName_iff.mpr (by decide)

/-! ### Parts and values -/

/-- White space of ASCII. -/
def IsWhite (b : UInt8) : Prop := b = 0x20 ∨ b = 0x09 ∨ b = 0x0a ∨ b = 0x0c ∨ b = 0x0d

instance (b : UInt8) : Decidable (IsWhite b) := inferInstanceAs (Decidable (_ ∨ _))

/-- A control byte of ASCII. -/
def IsControl (b : UInt8) : Prop := b < 0x20 ∨ b = 0x7f

/-- A text that can be a part of the request line. -/
structure IsPart (value : String) : Prop where
  nonempty : value ≠ ""
  visible : ∀ b ∈ Bytes.utf8 value, ¬(IsWhite b ∨ IsControl b)

/-- A text that cannot end a line. -/
def IsUnbroken (value : String) : Prop := ∀ b ∈ Bytes.utf8 value, b ≠ 0x0d ∧ b ≠ 0x0a

variable {headers : HeaderBlock} {chunked : Bool} {head : Bytes}

theorem isBreaking_iff (b : UInt8) : isBreaking b = true ↔ IsWhite b ∨ IsControl b := by
  simp only [isBreaking, IsWhite, IsControl, Bool.or_eq_true, decide_eq_true_eq, beq_iff_eq,
    ← UInt8.toNat_inj, UInt8.le_iff_toNat_le, UInt8.lt_iff_toNat_lt, UInt8.reduceToNat]
  omega

theorem isForwarded_iff {name : String} :
    isForwarded name = true ↔ name ∉ lineNames ∧ name ∉ hopNames := by
  simp [isForwarded]

theorem not_isPart_iff {value : String} :
    ¬IsPart value ↔ value = "" ∨ (Bytes.utf8 value).any isBreaking = true := by
  constructor
  · intro hnot
    by_contra hneither
    rw [not_or, List.any_eq_true, not_exists] at hneither
    refine hnot ⟨hneither.1, fun b hb hbreaks => hneither.2 b ⟨hb, ?_⟩⟩
    exact (isBreaking_iff b).mpr hbreaks
  · rintro (hempty | hany) ⟨hne, hvisible⟩
    · exact hne hempty
    · obtain ⟨b, hb, hbreaks⟩ := List.any_eq_true.mp hany
      exact hvisible b hb ((isBreaking_iff b).mp hbreaks)

theorem not_isUnbroken_iff {value : String} :
    ¬IsUnbroken value ↔ (Bytes.utf8 value).any isLineBreak = true := by
  simp only [IsUnbroken, isLineBreak, List.any_eq_true, Bool.or_eq_true, beq_iff_eq, not_forall,
    Classical.not_and_iff_not_or_not, not_not, exists_prop]

/-! ### Heads -/

theorem part_eq_ok_iff {name value : String} :
    part headers name = .ok value ↔ headers.get? name = some value ∧ IsPart value := by
  rw [part]
  cases headers.get? name with
  | none => simp
  | some text =>
    dsimp only
    rw [Option.some.injEq]
    by_cases htext : IsPart text
    · rw [if_neg (mt not_isPart_iff.mpr (not_not.mpr htext)), Except.ok.injEq]
      exact ⟨fun heq => ⟨heq, heq ▸ htext⟩, And.left⟩
    · rw [if_pos (not_isPart_iff.mp htext)]
      simp only [reduceCtorEq, false_iff, not_and]
      rintro rfl
      exact htext

theorem lines_eq_ok_iff {name value : String} {bs : Bytes} :
    lines name value = .ok bs ↔
      IsUnbroken value ∧ bs = (Bytes.pieces 0 (Bytes.utf8 value)).flatMap (line name) := by
  rw [lines]
  split
  next h => simp [not_isUnbroken_iff.mpr h]
  next h =>
    rw [← not_isUnbroken_iff, not_not] at h
    simp [h, eq_comm]

theorem allLines_eq_ok_iff {entries : List (String × String)} {bs : Bytes} :
    allLines entries = .ok bs ↔
      (∀ header ∈ entries, isForwarded header.1 = true → IsUnbroken header.2) ∧
        bs = (forwarded entries).flatMap fun field => Message.fieldLine field ++ lineEnd := by
  induction entries generalizing bs with
  | nil =>
    rw [allLines, Except.ok.injEq, eq_comm]
    simp [forwarded]
  | cons header entries ih =>
    obtain ⟨name, value⟩ := header
    rw [allLines, forwarded_cons, List.forall_mem_cons]
    cases hname : isForwarded name with
    | false => simpa [hname] using ih
    | true =>
      simp only [if_true, bind, pure, Except.pure, Except.bind_eq_ok_iff, lines_eq_ok_iff, ih,
        forall_const, Except.ok.injEq, List.flatMap_append, List.flatMap_map]
      constructor
      · rintro ⟨first, ⟨hvalue, rfl⟩, others, ⟨hrest, rfl⟩, rfl⟩
        exact ⟨⟨hvalue, hrest⟩, rfl⟩
      · rintro ⟨⟨hvalue, hrest⟩, rfl⟩
        exact ⟨_, ⟨hvalue, rfl⟩, _, ⟨hrest, rfl⟩, rfl⟩

/-- The request line, without its end. -/
def requestLine (method url version : String) : Bytes :=
  Bytes.utf8 method ++ 0x20 :: (Bytes.utf8 url ++ 0x20 :: Bytes.utf8 version)

/-- Headers have a head exactly when the parts of its request line are there and no value can break
a line. Its lines are the request line, the fields and an empty line. -/
theorem render_eq_ok_iff :
    render headers chunked = .ok head ↔
      ∃ method url version,
        (headers.get? methodName = some method ∧ IsPart method) ∧
        (headers.get? urlName = some url ∧ IsPart url) ∧
        (headers.get? versionName = some version ∧ IsPart version) ∧
        (∀ header ∈ headers.entries, isForwarded header.1 = true → IsUnbroken header.2) ∧
        head = (requestLine method url version ::
          (fields headers chunked).map Message.fieldLine ++ [[]]).flatMap (· ++ lineEnd) := by
  have hlines (method url version : String) :
      Bytes.utf8 method ++ [0x20] ++ Bytes.utf8 url ++ [0x20] ++ Bytes.utf8 version ++ lineEnd ++
          ((forwarded headers.entries).flatMap fun field => Message.fieldLine field ++ lineEnd) ++
          (if chunked then chunkedLine else []) ++ lineEnd =
        (requestLine method url version ::
          (fields headers chunked).map Message.fieldLine ++ [[]]).flatMap (· ++ lineEnd) := by
    cases chunked <;>
      simp [requestLine, fields, List.flatMap_map, chunkedLine, line, Message.fieldLine]
  simp only [render, bind, pure, Except.pure, Except.bind_eq_ok_iff, part_eq_ok_iff,
    allLines_eq_ok_iff, Except.ok.injEq]
  constructor
  · rintro ⟨method, hmethod, url, hurl, version, hversion, -, ⟨hvalues, rfl⟩, rfl⟩
    exact ⟨method, url, version, hmethod, hurl, hversion, hvalues, hlines method url version⟩
  · rintro ⟨method, url, version, hmethod, hurl, hversion, hvalues, rfl⟩
    exact ⟨method, hmethod, url, hurl, version, hversion, _, ⟨hvalues, rfl⟩,
      hlines method url version⟩

/-! ### Lines -/

theorem IsPart.not_mem {value : String} (h : IsPart value) {b : UInt8} (hb : IsWhite b) :
    b ∉ Bytes.utf8 value := fun hmem => h.visible b hmem (.inl hb)

theorem unbroken_requestLine {method url version : String} (hmethod : IsPart method)
    (hurl : IsPart url) (hversion : IsPart version) {b : UInt8} (hb : IsWhite b) (hne : b ≠ 0x20) :
    b ∉ requestLine method url version := by
  simp [requestLine, hmethod.not_mem hb, hurl.not_mem hb, hversion.not_mem hb, hne]

/-- Neither the name nor the value of a field can end a line. -/
theorem unbroken_fieldLine (hwell : headers.IsWellFormed)
    (hvalues : ∀ header ∈ headers.entries, isForwarded header.1 = true → IsUnbroken header.2)
    {field : String × Bytes} (hfield : field ∈ fields headers chunked) :
    0x0d ∉ Message.fieldLine field ∧ 0x0a ∉ Message.fieldLine field := by
  have hname := isName_of_mem_fields hwell hfield
  have hvisible (b : UInt8) (hb : b < 0x21) : b ∉ Bytes.utf8 field.1 := fun hmem =>
    absurd (hname.visible b hmem).1 (UInt8.not_le.mpr hb)
  have hvalue : ∀ b ∈ field.2, b ≠ 0x0d ∧ b ≠ 0x0a := by
    rcases List.mem_append.mp hfield with hforwarded | hown
    · obtain ⟨header, hheader, hpiece⟩ := List.mem_flatMap.mp hforwarded
      obtain ⟨hheader, hforwards⟩ := List.mem_filter.mp hheader
      obtain ⟨piece, hmem, rfl⟩ := List.mem_map.mp hpiece
      exact fun b hb => hvalues header hheader hforwards b (Bytes.mem_of_mem_pieces hmem hb)
    · cases chunked with
      | false => simp at hown
      | true =>
        rw [if_pos rfl, List.mem_singleton] at hown
        rw [hown]
        decide +kernel
  constructor
  · simpa [Message.fieldLine, hvisible 0x0d (by decide)] using fun hmem => (hvalue _ hmem).1 rfl
  · simpa [Message.fieldLine, hvisible 0x0a (by decide)] using fun hmem => (hvalue _ hmem).2 rfl

/-- The lines of a head that can be rendered hold something, but no part of a line end. -/
theorem unbroken_lines (hwell : headers.IsWellFormed) (chunked : Bool)
    {method url version : String} (hmethod : IsPart method) (hurl : IsPart url)
    (hversion : IsPart version)
    (hvalues : ∀ header ∈ headers.entries, isForwarded header.1 = true → IsUnbroken header.2) :
    ∀ line ∈ requestLine method url version :: (fields headers chunked).map Message.fieldLine,
      line ≠ [] ∧ 0x0d ∉ line ∧ 0x0a ∉ line := by
  have hreturn : IsWhite 0x0d := by decide
  have hfeed : IsWhite 0x0a := by decide
  rw [List.forall_mem_cons, List.forall_mem_map]
  refine ⟨⟨by simp [requestLine], ?_, ?_⟩, fun field hfield => ⟨by simp [Message.fieldLine], ?_⟩⟩
  · exact unbroken_requestLine hmethod hurl hversion hreturn (by decide)
  · exact unbroken_requestLine hmethod hurl hversion hfeed (by decide)
  · exact unbroken_fieldLine hwell hvalues hfield

end RequestHead
end RequestFeed
