import RequestFeed.Header.Block
/-!
# The grammar of header blocks

A header block is written as the number of its headers and, for each header, its name and its
value with their lengths in front. The grammar says this of a byte string without saying how one
is written or read. Reading accepts the byte strings of the grammar and no others, and what was
read is written as it was.

*Results.*
* `HeaderBlock.insert_eq_ok_iff`: which headers can be added to a block.
* `HeaderBlock.isWellFormed_offerAll`: blocks that are made by adding headers are well formed,
  whatever headers were refused.
* `HeaderBlock.decode_eq_ok_iff`: a block is read exactly when it is well formed and the byte
  string is its wire form.
* `HeaderBlock.isWireForm_iff`: the wire forms of well-formed blocks are the byte strings of the
  grammar.
* `HeaderBlock.codec_bijective`: writing and reading undo each other, on all blocks that can be
  made and on all byte strings of the grammar.
-/

namespace RequestFeed

theorem Except.bind_eq_ok_iff {ε α β : Type} {x : Except ε α} {f : α → Except ε β} {b : β} :
    x.bind f = .ok b ↔ ∃ a, x = .ok a ∧ f a = .ok b := by
  cases x with
  | error e => simp [Except.bind]
  | ok a => simp [Except.bind]

namespace HeaderBlock

/-- A name of visible ASCII characters, without uppercase letters and the colon. -/
structure IsName (name : String) : Prop where
  nonempty : name ≠ ""
  visible : ∀ b ∈ Bytes.utf8 name, 0x21 ≤ b ∧ b ≤ 0x7e
  lowercase : ∀ b ∈ Bytes.utf8 name, ¬ (0x41 ≤ b ∧ b ≤ 0x5a)
  noColon : ∀ b ∈ Bytes.utf8 name, b ≠ 0x3a

/-- Names are names and differ from each other, and all that is counted fits in two bytes. -/
structure IsWellFormed (block : HeaderBlock) : Prop where
  names : ∀ header ∈ block.entries, IsName header.1
  distinct : (block.entries.map Prod.fst).Nodup
  nameLengths : ∀ header ∈ block.entries, header.1.utf8ByteSize ≤ limit
  valueLengths : ∀ header ∈ block.entries, header.2.utf8ByteSize ≤ limit
  count : block.entries.length ≤ limit

/-- The header can be added to the block. -/
structure Admits (block : HeaderBlock) (name value : String) : Prop where
  isName : IsName name
  nameLength : name.utf8ByteSize ≤ limit
  valueLength : value.utf8ByteSize ≤ limit
  fresh : name ∉ block.entries.map Prod.fst
  count : block.entries.length < limit

/-! ### Adding headers -/

theorem isNameByte_eq_true_iff {b : UInt8} :
    isNameByte b = true ↔ (0x21 ≤ b ∧ b ≤ 0x7e) ∧ ¬ (0x41 ≤ b ∧ b ≤ 0x5a) ∧ b ≠ 0x3a := by
  simp only [isNameByte, Bool.and_eq_true, Bool.not_eq_true', decide_eq_true_eq, bne_iff_ne,
    Bool.and_eq_false_iff, decide_eq_false_iff_not, Decidable.not_and_iff_or_not, and_assoc]

theorem isName_iff {name : String} :
    IsName name ↔ name ≠ "" ∧ (Bytes.utf8 name).all isNameByte = true := by
  simp only [List.all_eq_true, isNameByte_eq_true_iff]
  constructor
  · intro h
    exact ⟨h.nonempty, fun b hb => ⟨h.visible b hb, h.lowercase b hb, h.noColon b hb⟩⟩
  · rintro ⟨hne, hbytes⟩
    exact
      { nonempty := hne
        visible := fun b hb => (hbytes b hb).1
        lowercase := fun b hb => (hbytes b hb).2.1
        noColon := fun b hb => (hbytes b hb).2.2 }

theorem checkName_eq_ok_iff {name : String} {u : Unit} :
    checkName name = .ok u ↔ IsName name ∧ name.utf8ByteSize ≤ limit := by
  rw [isName_iff, checkName]
  split
  next h =>
    rw [String.utf8ByteSize_eq_zero_iff] at h
    simp only [reduceCtorEq, false_iff]
    rintro ⟨⟨hne, -⟩, hle⟩
    rcases h with h | h
    · exact hne h
    · exact Nat.not_lt.mpr hle h
  next h =>
    rw [String.utf8ByteSize_eq_zero_iff, not_or, Nat.not_lt] at h
    split
    next hall => simp [h, hall]
    next hall => simp [hall]

theorem get?_isSome_iff {block : HeaderBlock} {name : String} :
    (block.get? name).isSome = true ↔ name ∈ block.entries.map Prod.fst := by
  rw [get?, List.lookup_isSome_iff, List.mem_map]
  simp only [beq_iff_eq, eq_comm (a := name)]

/-- The checks that adding a header makes, in order. -/
theorem insert_eq (name value : String) (block : HeaderBlock) :
    block.insert name value =
      (checkName name).bind fun _ =>
        if limit < value.utf8ByteSize then .error (.valueTooLong name value.utf8ByteSize)
        else if (block.get? name).isSome then .error (.duplicate name)
        else if limit ≤ block.entries.length then .error .tooMany
        else .ok ⟨block.entries ++ [(name, value)]⟩ := rfl

/-- A header is added at the end when the block admits it, and is refused otherwise. -/
theorem insert_eq_ok_iff {block block' : HeaderBlock} {name value : String} :
    block.insert name value = .ok block' ↔
      block.Admits name value ∧ block' = ⟨block.entries ++ [(name, value)]⟩ := by
  rw [insert_eq, Except.bind_eq_ok_iff]
  constructor
  · rintro ⟨u, hname, h⟩
    obtain ⟨hname, hlength⟩ := checkName_eq_ok_iff.mp hname
    split at h
    · simp at h
    next hvalue =>
      split at h
      · simp at h
      next hfresh =>
        split at h
        · simp at h
        next hcount =>
          rw [get?_isSome_iff] at hfresh
          simp only [Except.ok.injEq] at h
          exact ⟨⟨hname, hlength, Nat.not_lt.mp hvalue, hfresh, Nat.not_le.mp hcount⟩, h.symm⟩
  · rintro ⟨h, rfl⟩
    refine ⟨(), checkName_eq_ok_iff.mpr ⟨h.isName, h.nameLength⟩, ?_⟩
    rw [if_neg (Nat.not_lt.mpr h.valueLength), if_neg (mt get?_isSome_iff.mp h.fresh),
      if_neg (Nat.not_le.mpr h.count)]

/-- The first headers of a well-formed block are well formed. -/
theorem IsWellFormed.of_append {entries more : List (String × String)}
    (h : IsWellFormed ⟨entries ++ more⟩) : IsWellFormed ⟨entries⟩ := by
  have hsub : List.Sublist entries (entries ++ more) := List.sublist_append_left _ _
  exact
    { names := fun header hmem => h.names header (hsub.subset hmem)
      distinct := h.distinct.sublist (hsub.map _)
      nameLengths := fun header hmem => h.nameLengths header (hsub.subset hmem)
      valueLengths := fun header hmem => h.valueLengths header (hsub.subset hmem)
      count := Nat.le_trans hsub.length_le h.count }

/-- A block with one header more is well formed when the block admits the header. -/
theorem isWellFormed_append_iff {entries : List (String × String)} {name value : String} :
    IsWellFormed ⟨entries ++ [(name, value)]⟩ ↔
      IsWellFormed ⟨entries⟩ ∧ Admits ⟨entries⟩ name value := by
  have hdistinct : ((entries ++ [(name, value)]).map Prod.fst).Nodup ↔
      (entries.map Prod.fst).Nodup ∧ name ∉ entries.map Prod.fst := by
    rw [List.map_append, List.nodup_append]
    constructor
    · rintro ⟨hnodup, -, hne⟩
      exact ⟨hnodup, fun hmem => hne name hmem name List.mem_cons_self rfl⟩
    · rintro ⟨hnodup, hfresh⟩
      refine ⟨hnodup, by simp, ?_⟩
      intro a ha b hb heq
      rw [heq, List.mem_singleton.mp hb] at ha
      exact hfresh ha
  constructor
  · intro h
    have hlast : (name, value) ∈ entries ++ [(name, value)] := by simp
    have hcount : entries.length + 1 ≤ limit := by simpa using h.count
    refine ⟨h.of_append, ?_⟩
    exact
      { isName := h.names _ hlast, nameLength := h.nameLengths _ hlast
        valueLength := h.valueLengths _ hlast, fresh := (hdistinct.mp h.distinct).2
        count := hcount }
  · rintro ⟨h, ha⟩
    exact
      { names := List.forall_mem_append.mpr ⟨h.names, by simpa using ha.isName⟩
        distinct := hdistinct.mpr ⟨h.distinct, ha.fresh⟩
        nameLengths := List.forall_mem_append.mpr ⟨h.nameLengths, by simpa using ha.nameLength⟩
        valueLengths := List.forall_mem_append.mpr ⟨h.valueLengths, by simpa using ha.valueLength⟩
        count := by simpa using Nat.succ_le_of_lt ha.count }

theorem isWellFormed_empty : IsWellFormed {} := by
  constructor <;> simp

/-- What is inserted into a well-formed block leaves a well-formed block. -/
theorem IsWellFormed.insert_eq_ok_iff {block block' : HeaderBlock} {name value : String}
    (h : block.IsWellFormed) :
    block.insert name value = .ok block' ↔
      block' = ⟨block.entries ++ [(name, value)]⟩ ∧ block'.IsWellFormed := by
  rw [HeaderBlock.insert_eq_ok_iff]
  constructor
  · rintro ⟨hadmits, rfl⟩
    exact ⟨rfl, isWellFormed_append_iff.mpr ⟨h, hadmits⟩⟩
  · rintro ⟨rfl, hwf⟩
    exact ⟨(isWellFormed_append_iff.mp hwf).2, rfl⟩

/-- Adds a header if that is allowed, and leaves the block as it is otherwise. -/
def offer (block : HeaderBlock) (header : String × String) : HeaderBlock :=
  match block.insert header.1 header.2 with
  | .ok block => block
  | .error _ => block

/-- The block that is made when headers are offered one after the other. -/
def offerAll (headers : List (String × String)) (block : HeaderBlock) : HeaderBlock :=
  headers.foldl offer block

theorem IsWellFormed.offer {block : HeaderBlock} (h : block.IsWellFormed)
    (header : String × String) : (block.offer header).IsWellFormed := by
  unfold HeaderBlock.offer
  split
  next hinsert => exact (h.insert_eq_ok_iff.mp hinsert).2
  · exact h

theorem IsWellFormed.offerAll {block : HeaderBlock} (h : block.IsWellFormed)
    (headers : List (String × String)) : (offerAll headers block).IsWellFormed := by
  induction headers generalizing block with
  | nil => exact h
  | cons header rest ih => exact ih (h.offer header)

/-! ### Reading -/

theorem decodeNumber_eq_ok_iff {part : HeaderPart} {bs rest : Bytes} {n : Nat} :
    decodeNumber part bs = .ok (n, rest) ↔ n ≤ limit ∧ bs = Bytes.little 2 n ++ rest := by
  unfold decodeNumber
  constructor
  · intro h
    split at h
    · simp at h
    next front tail hcut =>
      obtain ⟨rfl, hlength⟩ := Bytes.cut?_eq_some_iff.mp hcut
      simp only [Except.ok.injEq, Prod.mk.injEq] at h
      obtain ⟨rfl, rfl⟩ := h
      have hbound := Bytes.ofLittle_lt front
      have hbytes := Bytes.little_ofLittle front
      rw [hlength] at hbound hbytes
      rw [hbytes]
      exact ⟨Nat.le_of_lt_succ hbound, rfl⟩
  · rintro ⟨hn, rfl⟩
    have hcut : Bytes.cut? 2 (Bytes.little 2 n ++ rest) = some (Bytes.little 2 n, rest) :=
      Bytes.cut?_eq_some_iff.mpr ⟨rfl, Bytes.length_little 2 n⟩
    have hfits : n < Bytes.capacity 2 := Nat.lt_succ_of_le hn
    simp only [hcut, Bytes.ofLittle_little, Nat.mod_eq_of_lt hfits]

/-- A text is read exactly when it is there with its length in front. -/
theorem decodeField_eq_ok_iff {part : HeaderPart} {bs rest : Bytes} {text : String} :
    decodeField part bs = .ok (text, rest) ↔
      text.utf8ByteSize ≤ limit ∧ bs = encodeField text ++ rest := by
  change (decodeNumber part bs).bind _ = .ok (text, rest) ↔ _
  rw [Except.bind_eq_ok_iff]
  constructor
  · rintro ⟨⟨n, tail⟩, hnumber, h⟩
    obtain ⟨hn, rfl⟩ := decodeNumber_eq_ok_iff.mp hnumber
    dsimp only at h
    split at h
    · simp at h
    next raw left hcut =>
      obtain ⟨rfl, rfl⟩ := Bytes.cut?_eq_some_iff.mp hcut
      split at h
      · simp at h
      next text' htext =>
        simp only [Except.ok.injEq, Prod.mk.injEq] at h
        obtain ⟨rfl, rfl⟩ := h
        rw [Bytes.text?_eq_some_iff] at htext
        subst htext
        exact ⟨hn, by simp [encodeField]⟩
  · rintro ⟨hsize, rfl⟩
    refine ⟨(text.utf8ByteSize, Bytes.utf8 text ++ rest), ?_, ?_⟩
    · rw [decodeNumber_eq_ok_iff]
      exact ⟨hsize, by simp [encodeField]⟩
    · have hcut : Bytes.cut? text.utf8ByteSize (Bytes.utf8 text ++ rest) =
          some (Bytes.utf8 text, rest) :=
        Bytes.cut?_eq_some_iff.mpr ⟨rfl, Bytes.length_utf8 text⟩
      simp only [hcut, Bytes.text?_eq_some_iff.mpr rfl]

/-- Headers are read into a well-formed block exactly when they are there and the block stays well
formed. -/
theorem decodeEntries_eq_ok_iff {n : Nat} {block block' : HeaderBlock} {bs rest : Bytes}
    (h : block.IsWellFormed) :
    decodeEntries n block bs = .ok (block', rest) ↔
      ∃ entries, entries.length = n ∧ block' = ⟨block.entries ++ entries⟩ ∧
        block'.IsWellFormed ∧ bs = entries.flatMap encodeEntry ++ rest := by
  induction n generalizing block bs with
  | zero =>
    simp only [decodeEntries, Except.ok.injEq, Prod.mk.injEq, List.length_eq_zero_iff,
      exists_eq_left, List.append_nil, List.flatMap_nil, List.nil_append]
    constructor
    · rintro ⟨rfl, rfl⟩
      exact ⟨rfl, h, rfl⟩
    · rintro ⟨rfl, -, rfl⟩
      exact ⟨rfl, rfl⟩
  | succ n ih =>
    have hdecode : decodeEntries (n + 1) block bs =
        (decodeField .name bs).bind fun name =>
          (decodeField .value name.2).bind fun value =>
            (block.insert name.1 value.1).bind fun block =>
              decodeEntries n block value.2 := rfl
    simp only [hdecode, Except.bind_eq_ok_iff]
    constructor
    · rintro ⟨⟨name, bs₁⟩, hname, ⟨value, bs₂⟩, hvalue, block₁, hinsert, hrest⟩
      obtain ⟨-, rfl⟩ := decodeField_eq_ok_iff.mp hname
      obtain ⟨-, rfl⟩ := decodeField_eq_ok_iff.mp hvalue
      obtain ⟨rfl, hwf⟩ := h.insert_eq_ok_iff.mp hinsert
      obtain ⟨entries, rfl, rfl, hwf', rfl⟩ := (ih hwf).mp hrest
      exact ⟨(name, value) :: entries, rfl, by simp, hwf', by simp [encodeEntry]⟩
    · rintro ⟨entries, hlength, rfl, hwf, rfl⟩
      cases entries with
      | nil => simp at hlength
      | cons header entries =>
        obtain ⟨name, value⟩ := header
        have hmem : (name, value) ∈ block.entries ++ (name, value) :: entries := by simp
        have hsplit : block.entries ++ (name, value) :: entries =
            block.entries ++ [(name, value)] ++ entries := by simp
        have hwf₁ : IsWellFormed ⟨block.entries ++ [(name, value)]⟩ := by
          rw [hsplit] at hwf
          exact hwf.of_append
        refine ⟨(name, encodeField value ++ (entries.flatMap encodeEntry ++ rest)), ?_,
          (value, entries.flatMap encodeEntry ++ rest), ?_,
          ⟨block.entries ++ [(name, value)]⟩, ?_, ?_⟩
        · exact decodeField_eq_ok_iff.mpr ⟨hwf.nameLengths _ hmem, by simp [encodeEntry]⟩
        · exact decodeField_eq_ok_iff.mpr ⟨hwf.valueLengths _ hmem, rfl⟩
        · exact h.insert_eq_ok_iff.mpr ⟨rfl, hwf₁⟩
        · rw [ih hwf₁]
          exact ⟨entries, Nat.succ.inj hlength, by rw [hsplit], hwf, rfl⟩

/-- A block is read exactly when it is well formed and the byte string is its wire form. -/
theorem decode_eq_ok_iff {bs : Bytes} {block : HeaderBlock} :
    decode bs = .ok block ↔ block.IsWellFormed ∧ bs = block.encode := by
  have hdecode : decode bs = (decodeNumber .count bs).bind fun number =>
      (decodeEntries number.1 {} number.2).bind fun read =>
        if read.2 ≠ [] then .error (.trailing read.2.length) else .ok read.1 := rfl
  simp only [hdecode, Except.bind_eq_ok_iff]
  constructor
  · rintro ⟨⟨n, tail⟩, hnumber, ⟨block', rest⟩, hentries, h⟩
    obtain ⟨-, rfl⟩ := decodeNumber_eq_ok_iff.mp hnumber
    obtain ⟨entries, rfl, rfl, hwf, rfl⟩ :=
      (decodeEntries_eq_ok_iff isWellFormed_empty).mp hentries
    split at h
    · simp at h
    next hrest =>
      simp only [Except.ok.injEq] at h
      subst h
      refine ⟨hwf, ?_⟩
      simp only at hrest
      simp [encode, Decidable.not_not.mp hrest]
  · rintro ⟨hwf, rfl⟩
    refine ⟨(block.entries.length, block.entries.flatMap encodeEntry), ?_, (block, []), ?_, rfl⟩
    · exact decodeNumber_eq_ok_iff.mpr ⟨hwf.count, rfl⟩
    · rw [decodeEntries_eq_ok_iff isWellFormed_empty]
      exact ⟨block.entries, rfl, rfl, hwf, by simp⟩

/-! ### The grammar -/

/-- A number in two bytes, the lower one first. -/
def IsNumber (n : Nat) (bs : Bytes) : Prop :=
  ∃ low high : UInt8, bs = [low, high] ∧ n = low.toNat + 256 * high.toNat

/-- A text in UTF-8 with its length in front. -/
def IsField (text : String) (bs : Bytes) : Prop :=
  ∃ front, IsNumber (Bytes.utf8 text).length front ∧ bs = front ++ Bytes.utf8 text

/-- The bytes are names and values in turn. -/
inductive Spells : List (String × String) → Bytes → Prop where
  | nil : Spells [] []
  | cons {name value : String} {nameField valueField rest : Bytes}
      {entries : List (String × String)} :
      IsField name nameField → IsField value valueField → Spells entries rest →
      Spells ((name, value) :: entries) (nameField ++ valueField ++ rest)

/-- The byte string is the number of some headers and then these headers, with names that differ. -/
structure IsWireForm (entries : List (String × String)) (bs : Bytes) : Prop where
  spelled : ∃ front rest, IsNumber entries.length front ∧ Spells entries rest ∧ bs = front ++ rest
  names : ∀ header ∈ entries, IsName header.1
  distinct : (entries.map Prod.fst).Nodup

theorem isNumber_iff {n : Nat} {bs : Bytes} :
    IsNumber n bs ↔ n ≤ limit ∧ bs = Bytes.little 2 n := by
  constructor
  · rintro ⟨low, high, rfl, hn⟩
    have hvalue : Bytes.ofLittle [low, high] = n := by simp [Bytes.ofLittle, hn]
    have hbound := Bytes.ofLittle_lt [low, high]
    have hbytes := Bytes.little_ofLittle [low, high]
    rw [hvalue] at hbound hbytes
    exact ⟨Nat.le_of_lt_succ hbound, hbytes.symm⟩
  · rintro ⟨hn, rfl⟩
    refine ⟨UInt8.ofNat n, UInt8.ofNat (n / 256), rfl, ?_⟩
    simp only [limit] at hn
    simp only [UInt8.toNat_ofNat']
    omega

theorem isField_iff {text : String} {bs : Bytes} :
    IsField text bs ↔ text.utf8ByteSize ≤ limit ∧ bs = encodeField text := by
  simp only [IsField, isNumber_iff, Bytes.length_utf8, encodeField]
  constructor
  · rintro ⟨front, ⟨hsize, rfl⟩, rfl⟩
    exact ⟨hsize, rfl⟩
  · rintro ⟨hsize, rfl⟩
    exact ⟨_, ⟨hsize, rfl⟩, rfl⟩

theorem spells_iff {entries : List (String × String)} {bs : Bytes} :
    Spells entries bs ↔
      (∀ header ∈ entries, header.1.utf8ByteSize ≤ limit ∧ header.2.utf8ByteSize ≤ limit) ∧
        bs = entries.flatMap encodeEntry := by
  constructor
  · intro h
    induction h with
    | nil => simp
    | cons hname hvalue _ ih =>
      obtain ⟨hnameSize, rfl⟩ := isField_iff.mp hname
      obtain ⟨hvalueSize, rfl⟩ := isField_iff.mp hvalue
      obtain ⟨hrest, rfl⟩ := ih
      exact ⟨List.forall_mem_cons.mpr ⟨⟨hnameSize, hvalueSize⟩, hrest⟩, by simp [encodeEntry]⟩
  · rintro ⟨hsizes, rfl⟩
    induction entries with
    | nil => exact .nil
    | cons header rest ih =>
      obtain ⟨hheader, hrest⟩ := List.forall_mem_cons.mp hsizes
      rw [List.flatMap_cons, encodeEntry]
      exact .cons (isField_iff.mpr ⟨hheader.1, rfl⟩) (isField_iff.mpr ⟨hheader.2, rfl⟩) (ih hrest)

/-- The byte strings of the grammar are the wire forms of well-formed blocks. -/
theorem isWireForm_iff {entries : List (String × String)} {bs : Bytes} :
    IsWireForm entries bs ↔ IsWellFormed ⟨entries⟩ ∧ bs = encode ⟨entries⟩ := by
  constructor
  · intro h
    obtain ⟨front, rest, hfront, hrest, rfl⟩ := h.spelled
    obtain ⟨hcount, rfl⟩ := isNumber_iff.mp hfront
    obtain ⟨hsizes, rfl⟩ := spells_iff.mp hrest
    refine ⟨?_, rfl⟩
    exact
      { names := h.names, distinct := h.distinct
        nameLengths := fun header hmem => (hsizes header hmem).1
        valueLengths := fun header hmem => (hsizes header hmem).2
        count := hcount }
  · rintro ⟨h, rfl⟩
    have hspells : Spells entries (entries.flatMap encodeEntry) :=
      spells_iff.mpr
        ⟨fun header hmem => ⟨h.nameLengths header hmem, h.valueLengths header hmem⟩, rfl⟩
    exact
      { spelled := ⟨_, _, isNumber_iff.mpr ⟨h.count, rfl⟩, hspells, rfl⟩
        names := h.names, distinct := h.distinct }

/--
Writing and reading undo each other. Blocks that are made by adding headers are well formed and
are read back as they were. A byte string is read exactly when it belongs to the grammar; what is
read are the headers that it spells, and they are written as this byte string again.
-/
theorem codec_bijective :
    (∀ headers : List (String × String),
      (offerAll headers {}).IsWellFormed ∧
        decode (offerAll headers {}).encode = .ok (offerAll headers {})) ∧
    ∀ bs : Bytes,
      ((∃ block, decode bs = .ok block) ↔ ∃ entries, IsWireForm entries bs) ∧
        ∀ block, decode bs = .ok block → IsWireForm block.entries bs ∧ block.encode = bs := by
  have hread {bs : Bytes} {block : HeaderBlock} :
      decode bs = .ok block ↔ IsWireForm block.entries bs := by
    rw [decode_eq_ok_iff, isWireForm_iff]
  constructor
  · intro headers
    have hwf := isWellFormed_empty.offerAll headers
    exact ⟨hwf, decode_eq_ok_iff.mpr ⟨hwf, rfl⟩⟩
  · intro bs
    constructor
    · constructor
      · rintro ⟨block, h⟩
        exact ⟨block.entries, hread.mp h⟩
      · rintro ⟨entries, h⟩
        exact ⟨⟨entries⟩, hread.mpr h⟩
    · intro block h
      exact ⟨hread.mp h, (decode_eq_ok_iff.mp h).2.symm⟩

/-- Headers that are refused for their names, between others that are not. -/
def someRefused : List (String × String) :=
  [("host", "a"), ("Host", "b"), ("host", "c"), ("", "d"), ("x:y", "e"), ("accept", "ä\x00b")]

/-- Only the headers that were not refused are written and read. -/
theorem someRefused_bijective :
    (offerAll someRefused {}).entries = [("host", "a"), ("accept", "ä\x00b")] ∧
      decode (offerAll someRefused {}).encode = .ok (offerAll someRefused {}) ∧
      IsWireForm (offerAll someRefused {}).entries (offerAll someRefused {}).encode := by
  have hread := (codec_bijective.1 someRefused).2
  exact ⟨by decide +kernel, hread, ((codec_bijective.2 _).2 _ hread).1⟩

end HeaderBlock
end RequestFeed
