import RequestFeed.Proofs.Request.Course
import RequestFeed.Proofs.Request.Rendering
/-!
# Requests that delimit themselves

The requests of a feed follow each other without anything between them. Where one ends is for its
reader to find out from its head. A body in chunks ends where its request ends. A body whose length
was announced by the headers of the stream is sent as it comes, and nobody compares the length with
what the headers announced; so such a request ends where its reader thinks exactly when the headers
told the truth.

*Results.*
* `Message.read?_render`: what reading makes of a head and what follows it.
* `Projection.written_of_complete`: the bytes of a complete request.
* `Projection.read_of_complete`: where the reader of a complete request thinks that it ends.
-/

namespace RequestFeed

/-! ### What a head announces -/

namespace Message

/-- A field as it is read. -/
def readField (field : String × Bytes) : Bytes × Bytes := (Bytes.utf8 field.1, trim field.2)

theorem mapM_field? {fields : List (String × Bytes)}
    (h : ∀ field ∈ fields, HeaderBlock.IsName field.1) :
    (fields.map fieldLine).mapM field? = some (fields.map readField) := by
  induction fields with
  | nil => rfl
  | cons field fields ih =>
    obtain ⟨hfield, hfields⟩ := List.forall_mem_cons.mp h
    rw [List.map_cons, List.mapM_cons, field?_fieldLine hfield, ih hfields]
    rfl

/-- What reading makes of a head and what follows it. -/
theorem read?_render {headers : HeaderBlock} (hwell : headers.IsWellFormed) {chunked : Bool}
    {head : Bytes} (h : RequestHead.render headers chunked = .ok head) (rest : Bytes) :
    ∃ requestLine, read? (head ++ rest) =
      (bodyForm? ((RequestHead.fields headers chunked).map readField)).bind fun form =>
        (body? form rest).map fun (body, left) =>
          (⟨requestLine, (RequestHead.fields headers chunked).map readField, body⟩, left) := by
  obtain ⟨method, url, version, ⟨-, hmethod⟩, ⟨-, hurl⟩, ⟨-, hversion⟩, hvalues, rfl⟩ :=
    RequestHead.render_eq_ok_iff.mp h
  have hunbroken := RequestHead.unbroken_lines hwell chunked hmethod hurl hversion hvalues
  have hlines : ∀ line ∈ RequestHead.requestLine method url version ::
      (RequestHead.fields headers chunked).map fieldLine, line ≠ [] ∧ 0x0d ∉ line :=
    fun line hline => ⟨(hunbroken line hline).1, (hunbroken line hline).2.1⟩
  have hnames : ∀ field ∈ RequestHead.fields headers chunked, HeaderBlock.IsName field.1 :=
    fun _ hmem => RequestHead.isName_of_mem_fields hwell hmem
  refine ⟨RequestHead.requestLine method url version, ?_⟩
  have hend : [([] : Bytes)].flatMap (· ++ RequestHead.lineEnd) = RequestHead.lineEnd := rfl
  rw [List.flatMap_append, hend, List.append_assoc, read?, head?_append hlines]
  simp only [Option.bind_eq_bind, Option.bind_some, mapM_field? hnames]

theorem valuesOf_map_readField (name : String) (fields : List (String × Bytes)) :
    valuesOf name (fields.map readField) =
      (fields.filter fun field => field.1 = name).map fun field => trim field.2 := by
  simp [valuesOf, List.filter_map, Function.comp_def, readField, Bytes.utf8_inj]

/-- The header lines with a name that is not forwarded are not there. -/
theorem filter_forwarded_of_not {name : String} (h : RequestHead.isForwarded name = false)
    (entries : List (String × String)) :
    (RequestHead.forwarded entries).filter (fun field => field.1 = name) = [] := by
  rw [List.filter_eq_nil_iff]
  intro field hfield heq
  obtain ⟨header, hheader, hpiece⟩ := List.mem_flatMap.mp hfield
  obtain ⟨piece, -, rfl⟩ := List.mem_map.mp hpiece
  obtain rfl : header.1 = name := by simpa using heq
  simp [h] at hheader

/-- The header lines with a forwarded name have the pieces of the one value of that name. -/
theorem filter_forwarded {name : String} (h : RequestHead.isForwarded name = true)
    {entries : List (String × String)} (hdistinct : (entries.map Prod.fst).Nodup) :
    (RequestHead.forwarded entries).filter (fun field => field.1 = name) =
      match entries.lookup name with
      | none => []
      | some value => (Bytes.pieces 0 (Bytes.utf8 value)).map fun piece => (name, piece) := by
  induction entries with
  | nil => rfl
  | cons header entries ih =>
    obtain ⟨other, value⟩ := header
    rw [List.map_cons, List.nodup_cons] at hdistinct
    have hrest := ih hdistinct.2
    rw [RequestHead.forwarded_cons, List.filter_append, List.lookup_cons]
    by_cases heq : name = other
    · subst heq
      have hnone : entries.lookup name = none := by
        rw [List.lookup_eq_none_iff]
        intro header hheader
        rw [bne_iff_ne]
        exact fun hsame => hdistinct.1 (List.mem_map.mpr ⟨header, hheader, hsame.symm⟩)
      have hown : ((Bytes.pieces 0 (Bytes.utf8 value)).map fun piece => (name, piece)).filter
          (fun field => field.1 = name) =
            (Bytes.pieces 0 (Bytes.utf8 value)).map fun piece => (name, piece) :=
        List.filter_eq_self.mpr (by simp)
      rw [hrest, hnone, if_pos h, beq_self_eq_true, hown]
      exact List.append_nil _
    · have hothers : ((Bytes.pieces 0 (Bytes.utf8 value)).map fun piece => (other, piece)).filter
          (fun field => field.1 = name) = [] :=
        List.filter_eq_nil_iff.mpr (by simpa using fun _ _ => Ne.symm heq)
      rw [hrest, beq_eq_false_iff_ne.mpr heq]
      split
      · rw [hothers]
        rfl
      · rfl

end Message

/-- The lengths that the headers announce for the body, one for each value. -/
def HeaderBlock.lengths (headers : HeaderBlock) : List Bytes :=
  match headers.get? RequestHead.lengthName with
  | none => []
  | some value => (Bytes.pieces 0 (Bytes.utf8 value)).map Message.trim

theorem HeaderBlock.lengths_eq_nil_iff {headers : HeaderBlock} :
    headers.lengths = [] ↔ headers.get? RequestHead.lengthName = none := by
  unfold lengths
  cases headers.get? RequestHead.lengthName with
  | none => simp
  | some value => simp [Bytes.pieces_ne_nil]

/-- Every length that the headers announce is this number. -/
def HeaderBlock.Announces (headers : HeaderBlock) (n : Nat) : Prop :=
  ∀ value ∈ headers.lengths, Message.number? 10 value = some n

namespace Message

theorem length?_eq_some_iff {value : Bytes} {others : List Bytes} {n : Nat} :
    length? (value :: others) = some n ↔ ∀ v ∈ value :: others, number? 10 v = some n := by
  rw [List.forall_mem_cons, length?]
  cases hv : number? 10 value with
  | none => simp
  | some m =>
    simp only [Option.bind_eq_bind, Option.bind_some, Option.ite_none_right_eq_some,
      Option.some.injEq, List.all_eq_true, decide_eq_true_eq]
    constructor
    · rintro ⟨hall, rfl⟩
      exact ⟨rfl, hall⟩
    · rintro ⟨rfl, hall⟩
      exact ⟨hall, rfl⟩

/-- A head that announces chunks is understood so. -/
theorem bodyForm?_chunked (headers : HeaderBlock) :
    bodyForm? ((RequestHead.fields headers true).map readField) = some .chunked := by
  have hcoding : valuesOf "transfer-encoding" ((RequestHead.fields headers true).map readField) =
      [Bytes.utf8 "chunked"] := by
    rw [valuesOf_map_readField, RequestHead.fields, List.filter_append,
      filter_forwarded_of_not (by decide)]
    decide
  rw [bodyForm?, hcoding]
  exact if_pos (by decide)

/-- A head that does not announce chunks is understood to announce the lengths of the headers. -/
theorem bodyForm?_sized {headers : HeaderBlock} (h : headers.IsWellFormed) :
    bodyForm? ((RequestHead.fields headers false).map readField) =
      if headers.lengths = [] then some (.sized 0) else (length? headers.lengths).map .sized := by
  have hfields : RequestHead.fields headers false = RequestHead.forwarded headers.entries :=
    List.append_nil _
  have hcoding : valuesOf "transfer-encoding" ((RequestHead.fields headers false).map readField) =
      [] := by
    rw [valuesOf_map_readField, hfields, filter_forwarded_of_not (by decide)]
    rfl
  have hlengths : valuesOf RequestHead.lengthName
      ((RequestHead.fields headers false).map readField) = headers.lengths := by
    rw [valuesOf_map_readField, hfields, filter_forwarded (by decide) h.distinct,
      HeaderBlock.lengths, HeaderBlock.get?]
    cases headers.entries.lookup RequestHead.lengthName with
    | none => rfl
    | some value => simp
  rw [bodyForm?, hcoding]
  simp only [hlengths]
  cases headers.lengths with
  | nil => rfl
  | cons value others => rfl

/-- A body as it came is read to its end, and not beyond, exactly when the headers announce its
length. -/
theorem body?_sized_iff {headers : HeaderBlock} (h : headers.IsWellFormed) {body : Bytes}
    (hnone : headers.lengths = [] → body = []) (b following : Bytes) :
    (∃ form, bodyForm? ((RequestHead.fields headers false).map readField) = some form ∧
        body? form (body ++ following) = some (b, following)) ↔
      b = body ∧ headers.Announces body.length := by
  rw [bodyForm?_sized h, HeaderBlock.Announces]
  have hcut (n : Nat) : body? (.sized n) (body ++ following) = some (b, following) ↔
      b = body ∧ n = body.length := by
    rw [body?, Bytes.cut?_eq_some_iff, List.append_cancel_right_eq]
    constructor
    · rintro ⟨rfl, rfl⟩
      exact ⟨rfl, rfl⟩
    · rintro ⟨rfl, rfl⟩
      exact ⟨rfl, rfl⟩
  cases hlengths : headers.lengths with
  | nil =>
    obtain rfl := hnone hlengths
    simpa using hcut 0
  | cons value others =>
    simp only [reduceCtorEq, if_false, Option.map_eq_some_iff, ← length?_eq_some_iff]
    constructor
    · rintro ⟨_, ⟨n, hn, rfl⟩, hbody⟩
      obtain ⟨rfl, rfl⟩ := (hcut n).mp hbody
      exact ⟨rfl, hn⟩
    · rintro ⟨rfl, hn⟩
      exact ⟨_, ⟨_, hn, rfl⟩, (hcut _).mpr ⟨rfl, rfl⟩⟩

/-- When the reader of a head and what follows it stops before `left`. -/
theorem read?_render_iff {headers : HeaderBlock} (hwell : headers.IsWellFormed) {chunked : Bool}
    {head : Bytes} (h : RequestHead.render headers chunked = .ok head) (rest b left : Bytes) :
    (∃ m, read? (head ++ rest) = some (m, left) ∧ m.body = b) ↔
      ∃ form, bodyForm? ((RequestHead.fields headers chunked).map readField) = some form ∧
        body? form rest = some (b, left) := by
  obtain ⟨requestLine, hread⟩ := read?_render hwell h rest
  rw [hread]
  simp only [Option.bind_eq_some_iff, Option.map_eq_some_iff, Prod.mk.injEq, Prod.exists]
  constructor
  · rintro ⟨m, ⟨form, hform, body, left', hbody, rfl, rfl⟩, rfl⟩
    exact ⟨form, hform, hbody⟩
  · rintro ⟨form, hform, hbody⟩
    exact ⟨_, ⟨form, hform, b, left, hbody, rfl, rfl⟩, rfl⟩

end Message

/-! ### Complete requests -/

/-- The bytes of the body that some events bring, up to the first that ends the stream. -/
def StreamEvent.body : List StreamEvent → Bytes
  | [] => []
  | .data bs fin :: rest => bs ++ if fin then [] else body rest
  | e :: rest => if e.isTerminal then [] else body rest

/-- The body of an upload is made of all its pieces, whatever events follow. -/
theorem StreamEvent.body_upload (headers : HeaderBlock) (pieces : List Bytes) (last : Bytes)
    (rest : List StreamEvent) :
    body (upload headers pieces last ++ rest) = (pieces ++ [last]).flatten := by
  have hpieces : body (pieces.map (fun bs => .data bs false) ++
      ([.data last true] ++ rest)) = (pieces ++ [last]).flatten := by
    induction pieces with
    | nil => simp [body]
    | cons piece pieces ih => simpa [body] using ih
  rw [upload, List.cons_append, List.cons_append, List.append_assoc]
  exact hpieces

namespace Projection

/-- A complete request is a head and a body: the bytes that the events brought, in chunks or as they
came. -/
theorem written_of_complete {stream : StreamId} {es : List StreamEvent}
    (h : (run es { stream }).output.growth = .complete) :
    ∃ headers fin head, ∃ pieces : List Bytes, es.head? = some (.opened headers fin) ∧
      RequestHead.render headers (isChunked headers fin) = .ok head ∧
      StreamEvent.body es = pieces.flatten ∧ (fin = true → pieces = []) ∧
      (run es { stream }).written =
        head ++ (pieces.flatMap (StreamEvent.coded (isChunked headers fin)) ++
          StreamEvent.ending (isChunked headers fin)) := by
  have hcourse := (course_iff_run stream).mpr ⟨h, rfl⟩
  generalize (run es { stream }).written = bs at hcourse ⊢
  cases hcourse with
  | made hmakes rest =>
    cases hmakes with
    | bodiless hhead =>
      exact ⟨_, true, _, [], rfl, hhead, rfl, fun _ => rfl, by simp [isChunked, StreamEvent.ending]⟩
    | @bodied headers head hhead pieces last =>
      exact ⟨headers, false, head, pieces ++ [last], rfl, hhead,
        StreamEvent.body_upload headers pieces last rest, fun hfin => absurd hfin (by decide),
        List.append_assoc _ _ _⟩

/--
A complete request is read from the front of any bytes that begin with it. Its reader stops at its
end, whatever follows, and has then read the bytes that the events of the stream brought as the
body, exactly when every length that the headers announce is the number of these bytes. Where the
headers announce none, it always does.
-/
theorem read_of_complete {stream : StreamId} {es : List StreamEvent}
    (hwell : ∀ headers fin, .opened headers fin ∈ es → headers.IsWellFormed)
    (hcomplete : (run es { stream }).output.growth = .complete) :
    ∃ headers fin, es.head? = some (.opened headers fin) ∧ ∀ body following : Bytes,
      (∃ m, Message.read? ((run es { stream }).written ++ following) = some (m, following) ∧
          m.body = body) ↔
        body = StreamEvent.body es ∧ headers.Announces (StreamEvent.body es).length := by
  obtain ⟨headers, fin, head, pieces, hopened, hrender, hbody, hfin, hwritten⟩ :=
    written_of_complete hcomplete
  have hheaders := hwell headers fin (List.mem_of_head? hopened)
  refine ⟨headers, fin, hopened, fun body following => ?_⟩
  rw [hwritten, hbody, List.append_assoc, List.append_assoc,
    Message.read?_render_iff hheaders hrender]
  cases hchunked : isChunked headers fin with
  | true =>
    have hlengths : headers.lengths = [] :=
      HeaderBlock.lengths_eq_nil_iff.mpr (isChunked_eq_true_iff.mp hchunked).2
    rw [← ProjectionStage.bodyBytes_eq, ← ProjectionStage.lastChunk_eq, if_pos rfl,
      Message.bodyForm?_chunked]
    simp [Message.body?, Message.chunks?_append, HeaderBlock.Announces, hlengths, eq_comm]
  | false =>
    have hraw : pieces.flatMap (StreamEvent.coded false) = pieces.flatten := List.flatMap_id
    have hopen : StreamEvent.ending false = [] := rfl
    rw [hopen, List.nil_append, hraw]
    refine Message.body?_sized_iff hheaders (fun hlengths => ?_) body following
    rw [HeaderBlock.lengths_eq_nil_iff] at hlengths
    have hended : fin = true := by
      by_contra hfin
      rw [isChunked_eq_true_iff.mpr ⟨Bool.not_eq_true _ ▸ hfin, hlengths⟩] at hchunked
      exact absurd hchunked (by decide)
    rw [hfin hended, List.flatten_nil]

/-- The headers of an upload that announce four bytes. -/
def fourBytes : HeaderBlock :=
  HeaderBlock.offerAll
    [("method", "PUT"), ("url", "/x"), ("version", "HTTP/1.1"), ("content-length", "4")] {}

/-- What follows an upload in a feed. -/
def nextRequest : Bytes := Bytes.utf8 "GET /y HTTP/1.1\r\n\r\n"

/-- An upload of the bytes that it has announced. -/
def wholeUpload : List StreamEvent :=
  [.opened fourBytes false, .data (Bytes.utf8 "ab") false, .data (Bytes.utf8 "cd") true]

/-- The reader of the upload stops before the next request. -/
theorem wholeUpload_read :
    (run wholeUpload { stream := 1 }).output.growth = .complete ∧
      ∃ m, Message.read? ((run wholeUpload { stream := 1 }).written ++ nextRequest) =
          some (m, nextRequest) ∧ m.body = Bytes.utf8 "abcd" := by
  have hwell : ∀ headers fin, .opened headers fin ∈ wholeUpload → headers.IsWellFormed := by
    intro headers fin hmem
    obtain ⟨rfl, -⟩ : headers = fourBytes ∧ fin = false := by simpa [wholeUpload] using hmem
    exact HeaderBlock.isWellFormed_empty.offerAll _
  have hcomplete : (run wholeUpload { stream := 1 }).output.growth = .complete := by
    decide +kernel
  obtain ⟨headers, fin, hopened, hread⟩ := read_of_complete hwell hcomplete
  obtain ⟨rfl, -⟩ : fourBytes = headers ∧ false = fin := by simpa [wholeUpload] using hopened
  have hlengths : fourBytes.lengths = [[0x34]] := by decide +kernel
  refine ⟨hcomplete, (hread _ nextRequest).mpr ⟨rfl, ?_⟩⟩
  rw [HeaderBlock.Announces, hlengths]
  decide

/-- An upload that ends before it has brought the bytes that it has announced. -/
def shortUpload : List StreamEvent :=
  [.opened fourBytes false, .data (Bytes.utf8 "ab") true]

/-- The reader of the short upload takes the first bytes of the next request for its body. -/
theorem shortUpload_overrun :
    (run shortUpload { stream := 1 }).output.growth = .complete ∧
      (Message.read? ((run shortUpload { stream := 1 }).written ++ nextRequest)).map
          (fun (m, left) => (m.body, left)) =
        some (Bytes.utf8 "abGE", Bytes.utf8 "T /y HTTP/1.1\r\n\r\n") ∧
      Bytes.utf8 "T /y HTTP/1.1\r\n\r\n" ≠ nextRequest := by
  decide +kernel

end Projection
end RequestFeed
