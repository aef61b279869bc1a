import Mathlib.Data.List.Induction
import RequestFeed.Proofs.Feed.Coherence
import RequestFeed.Proofs.Feed.Order
import RequestFeed.Proofs.Request.Production
/-!
# The course of a request

What becomes of a request whose stream brings some events, said without projections: which events
begin a request, which make one, which break the one that others began, and which bytes each of them
adds. Whoever has the output of the request may read from it at any time, and in any mode.

*Results.*
* `Projection.course_iff_run`: what some events leave of a request, and its bytes.
* `RequestRun.restored_run`: reads have no bearing on that.
* `RequestRun.stays_in_step`: a request and its output end together, and where they end.
-/

namespace RequestFeed

/-! ### Events that make requests -/

namespace Projection

/-- The body of the request is sent in chunks. -/
def isChunked (headers : HeaderBlock) (fin : Bool) : Bool :=
  !fin && (headers.get? "content-length").isNone

theorem isChunked_eq_true_iff {headers : HeaderBlock} {fin : Bool} :
    isChunked headers fin = true ↔ fin = false ∧ headers.get? RequestHead.lengthName = none := by
  simp [isChunked, RequestHead.lengthName]

end Projection

namespace StreamEvent

/-- Bytes of a body in a request: as they came, or as a chunk, which is their number in hexadecimal
digits, a line end, the bytes, and a line end. No bytes make no chunk. -/
def coded (chunked : Bool) (bs : Bytes) : Bytes :=
  if chunked ∧ bs ≠ [] then
    Bytes.utf8 (String.ofList (Nat.toDigits 16 bs.length)) ++ [0x0d, 0x0a] ++ bs ++ [0x0d, 0x0a]
  else bs

/-- What ends a body: a chunk of no bytes and an empty line, if it was sent in chunks. -/
def ending (chunked : Bool) : Bytes :=
  if chunked then [0x30, 0x0d, 0x0a, 0x0d, 0x0a] else []

/-- Events that begin a request and do not end it, and the bytes that they bring. -/
inductive Begins : List StreamEvent → Bytes → Prop
  | unopened : Begins [] []
  | opened {headers : HeaderBlock} {head : Bytes}
      (hhead : RequestHead.render headers (Projection.isChunked headers false) = .ok head)
      (pieces : List Bytes) :
      Begins (.opened headers false :: pieces.map fun bs => .data bs false)
        (head ++ pieces.flatMap (coded (Projection.isChunked headers false)))

/-- The events of a stream that is opened and brings a body, of which only the last ends it. -/
def upload (headers : HeaderBlock) (pieces : List Bytes) (last : Bytes) : List StreamEvent :=
  .opened headers false :: pieces.map (fun bs => .data bs false) ++ [.data last true]

/-- Events that make a whole request, and its bytes. -/
inductive Makes : List StreamEvent → Bytes → Prop
  | bodiless {headers : HeaderBlock} {head : Bytes}
      (hhead : RequestHead.render headers (Projection.isChunked headers true) = .ok head) :
      Makes [.opened headers true] head
  | bodied {headers : HeaderBlock} {head : Bytes}
      (hhead : RequestHead.render headers (Projection.isChunked headers false) = .ok head)
      (pieces : List Bytes) (last : Bytes) :
      Makes (upload headers pieces last)
        (head ++ (pieces ++ [last]).flatMap (coded (Projection.isChunked headers false)) ++
          ending (Projection.isChunked headers false))

/-- An event that breaks the request that some events began. -/
inductive Breaks : List StreamEvent → StreamEvent → Prop
  | dataFirst (bs : Bytes) (fin : Bool) : Breaks [] (.data bs fin)
  | unrenderable {headers : HeaderBlock} {fin : Bool} {cause : ProjectionError}
      (hhead : RequestHead.render headers (Projection.isChunked headers fin) = .error cause) :
      Breaks [] (.opened headers fin)
  | openedAgain {es : List StreamEvent} (hopened : es ≠ []) (headers : HeaderBlock) (fin : Bool) :
      Breaks es (.opened headers fin)
  | reset (es : List StreamEvent) (code : UInt32) : Breaks es (.reset code)
  | connectionFailed (es : List StreamEvent) : Breaks es .connectionFailed

/-- What some events leave of a request, and the bytes of the request. What comes after the event
that finishes it is ignored. -/
inductive Course : List StreamEvent → Growth → Bytes → Prop
  | begun {es : List StreamEvent} {bs : Bytes} (h : Begins es bs) : Course es .growing bs
  | made {whole : List StreamEvent} {bs : Bytes} (h : Makes whole bs) (rest : List StreamEvent) :
      Course (whole ++ rest) .complete bs
  | broken {valid : List StreamEvent} {bs : Bytes} {e : StreamEvent} (h : Begins valid bs)
      (hbreaks : Breaks valid e) (rest : List StreamEvent) :
      Course (valid ++ e :: rest) .failed bs

variable {es : List StreamEvent} {bs : Bytes}

/-- After events that began a request, one more goes on with it, ends it or breaks it. -/
theorem Begins.next (h : Begins es bs) (e : StreamEvent) :
    (∃ more, Begins (es ++ [e]) more) ∨ (∃ more, Makes (es ++ [e]) more) ∨ Breaks es e := by
  cases e with
  | reset code => exact .inr (.inr (.reset es code))
  | connectionFailed => exact .inr (.inr (.connectionFailed es))
  | opened headers fin =>
    cases h with
    | opened => exact .inr (.inr (.openedAgain (List.cons_ne_nil _ _) headers fin))
    | unopened =>
      cases hhead : RequestHead.render headers (Projection.isChunked headers fin) with
      | error cause => exact .inr (.inr (.unrenderable hhead))
      | ok head =>
        cases fin with
        | true => exact .inr (.inl ⟨_, .bodiless hhead⟩)
        | false => exact .inl ⟨_, .opened hhead []⟩
  | data bytes fin =>
    cases h with
    | unopened => exact .inr (.inr (.dataFirst bytes fin))
    | opened hhead pieces =>
      cases fin with
      | true => exact .inr (.inl ⟨_, .bodied hhead pieces bytes⟩)
      | false =>
        have hmore := Begins.opened hhead (pieces ++ [bytes])
        rw [List.map_append] at hmore
        exact .inl ⟨_, hmore⟩

/-- Every sequence of events has a course. -/
theorem exists_course (es : List StreamEvent) : ∃ growth bs, Course es growth bs := by
  -- events are added at the end, since only what they leave decides about the next one
  induction es using List.reverseRecOn with
  | nil => exact ⟨_, _, .begun .unopened⟩
  | append_singleton es e ih =>
    obtain ⟨growth, bs, hcourse⟩ := ih
    cases hcourse with
    | begun h =>
      rcases h.next e with ⟨more, hbegins⟩ | ⟨more, hmakes⟩ | hbreaks
      · exact ⟨_, _, .begun hbegins⟩
      · exact ⟨_, _, by simpa using Course.made hmakes []⟩
      · exact ⟨_, _, .broken h hbreaks []⟩
    | made h rest => exact ⟨_, _, by simpa using Course.made h (rest ++ [e])⟩
    | broken h hbreaks rest => exact ⟨_, _, by simpa using Course.broken h hbreaks (rest ++ [e])⟩

end StreamEvent

/-! ### Bytes of bodies -/

namespace ProjectionStage

open StreamEvent

theorem bodyBytes_eq (chunked : Bool) : bodyBytes chunked = coded chunked := by
  funext bs
  unfold bodyBytes coded chunk Hex.render
  rw [Hex.digits_eq]
  cases chunked with
  | false => rfl
  | true =>
    by_cases hbs : bs = []
    · simp [hbs]
    · simp [hbs, RequestHead.lineEnd]

theorem lastChunk_eq (chunked : Bool) : (if chunked then lastChunk else []) = ending chunked := rfl

/-- What bytes of a body add to a request. -/
theorem advance_data (chunked : Bool) (bs : Bytes) (fin : Bool) :
    (body chunked).advance (.data bs fin) =
      .ok (coded chunked bs ++ if fin then ending chunked else [],
        if fin then .finished else .body chunked) := by
  rw [advance, bodyBytes_eq]
  cases fin <;> simp [pure, Except.pure, ← lastChunk_eq]

end ProjectionStage

/-! ### Runs of projections -/

namespace Projection

open StreamEvent

/-- The request is not finished, stands at this stage and has these bytes. -/
structure Stands (p : Projection) (stage : ProjectionStage) (bs : Bytes) : Prop where
  stage : p.stage = stage
  unfinished : p.isFinished = false
  growing : p.output.growth = .growing
  written : p.written = bs

variable {p : Projection} {stage next : ProjectionStage} {bs more : Bytes} {e : StreamEvent}
  {es : List StreamEvent}

theorem stands_new (stream : StreamId) : Stands { stream } .awaitingOpening [] :=
  ⟨rfl, rfl, rfl, rfl⟩

namespace Stands

theorem step (h : p.Stands stage bs) (ha : stage.advance e = .ok (more, next))
    (hnext : next ≠ .finished) : (p.step e).1.Stands next (bs ++ more) := by
  have hs := step_of_ok h.growing h.unfinished (h.stage ▸ ha)
  rw [hs]
  constructor
  · rfl
  · simpa [isFinished] using hnext
  · exact if_neg hnext
  · simp [Projection.written, ← h.written]

theorem step_finish (h : p.Stands stage bs) (ha : stage.advance e = .ok (more, .finished)) :
    (p.step e).1.isFinished = true ∧ (p.step e).1.output.growth = .complete ∧
      (p.step e).1.written = bs ++ more := by
  have hs := step_of_ok h.growing h.unfinished (h.stage ▸ ha)
  rw [hs]
  exact ⟨rfl, rfl, by simp [Projection.written, ← h.written]⟩

theorem step_error (h : p.Stands stage bs) {cause : ProjectionError}
    (ha : stage.advance e = .error cause) :
    (p.step e).1.isFinished = true ∧ (p.step e).1.output.growth = .failed ∧
      (p.step e).1.written = bs := by
  have hs := step_of_error h.unfinished (h.stage ▸ ha)
  rw [hs]
  exact ⟨rfl, rfl, h.written⟩

/-- Bytes of the body that do not end the stream leave the request where it stands. -/
theorem run_pieces {chunked : Bool} (h : p.Stands (.body chunked) bs) (pieces : List Bytes) :
    (p.run (pieces.map fun bytes => .data bytes false)).Stands (.body chunked)
      (bs ++ pieces.flatMap (coded chunked)) := by
  induction pieces generalizing p bs with
  | nil => simpa using h
  | cons piece pieces ih =>
    have hstep := h.step (ProjectionStage.advance_data chunked piece false) (by simp)
    simpa using ih hstep

end Stands

theorem advance_opened (headers : HeaderBlock) (fin : Bool) :
    ProjectionStage.awaitingOpening.advance (.opened headers fin) =
      (RequestHead.render headers (isChunked headers fin)).bind fun head =>
        .ok (head, if fin then .finished else .body (isChunked headers fin)) := rfl

theorem advance_renderable {headers : HeaderBlock} {fin : Bool} {head : Bytes}
    (hhead : RequestHead.render headers (isChunked headers fin) = .ok head) :
    ProjectionStage.awaitingOpening.advance (.opened headers fin) =
      .ok (head, if fin then .finished else .body (isChunked headers fin)) := by
  rw [advance_opened, hhead]
  rfl

theorem run_opened {headers : HeaderBlock} {head : Bytes} (h : p.Stands .awaitingOpening [])
    (hhead : RequestHead.render headers (isChunked headers false) = .ok head)
    (pieces : List Bytes) :
    (p.run (.opened headers false :: pieces.map fun bytes => .data bytes false)).Stands
      (.body (isChunked headers false))
      (head ++ pieces.flatMap (coded (isChunked headers false))) :=
  (h.step (advance_renderable hhead) (by simp)).run_pieces pieces

/-- Events that begin a request leave it unfinished. It awaits its opening only before them. -/
theorem run_of_begins (h : Begins es bs) (stream : StreamId) :
    ∃ stage, (run es { stream }).Stands stage bs ∧ (stage = .awaitingOpening ↔ es = []) := by
  cases h with
  | unopened => exact ⟨.awaitingOpening, stands_new stream, by simp⟩
  | opened hhead pieces => exact ⟨_, run_opened (stands_new stream) hhead pieces, by simp⟩

/-- An event that breaks a request makes no sense where the request stands. -/
theorem advance_of_breaks (h : Breaks es e) (hp : p.Stands stage bs)
    (hstage : stage = .awaitingOpening ↔ es = []) : ∃ cause, stage.advance e = .error cause := by
  have hunfinished : stage ≠ .finished := by
    rintro rfl
    simpa [isFinished, hp.stage] using hp.unfinished
  cases h with
  | dataFirst bytes fin =>
    rw [hstage.mpr rfl]
    exact ⟨_, rfl⟩
  | unrenderable hhead =>
    rw [hstage.mpr rfl, advance_opened, hhead]
    exact ⟨_, rfl⟩
  | openedAgain hopened headers fin =>
    cases stage with
    | awaitingOpening => exact absurd (hstage.mp rfl) hopened
    | body chunked => exact ⟨_, rfl⟩
    | finished => exact absurd rfl hunfinished
  | reset es code => cases stage <;> first | exact ⟨_, rfl⟩ | exact absurd rfl hunfinished
  | connectionFailed es => cases stage <;> first | exact ⟨_, rfl⟩ | exact absurd rfl hunfinished

theorem run_of_makes (h : Makes es bs) (stream : StreamId) :
    (run es { stream }).isFinished = true ∧ (run es { stream }).output.growth = .complete ∧
      (run es { stream }).written = bs := by
  cases h with
  | bodiless hhead => exact (stands_new stream).step_finish (advance_renderable hhead)
  | @bodied headers head hhead pieces last =>
    have hopened := run_opened (stands_new stream) hhead pieces
    rw [upload, run_append]
    simpa using hopened.step_finish (ProjectionStage.advance_data _ last true)

theorem run_of_course {growth : Growth} (h : Course es growth bs) (stream : StreamId) :
    (run es { stream }).output.growth = growth ∧ (run es { stream }).written = bs := by
  cases h with
  | begun h =>
    obtain ⟨stage, hstands, -⟩ := run_of_begins h stream
    exact ⟨hstands.growing, hstands.written⟩
  | made h rest =>
    obtain ⟨hfinished, hresult⟩ := run_of_makes h stream
    rw [run_append, run_of_isFinished hfinished]
    exact hresult
  | broken h hbreaks rest =>
    obtain ⟨stage, hstands, hstage⟩ := run_of_begins h stream
    obtain ⟨cause, ha⟩ := advance_of_breaks hbreaks hstands hstage
    obtain ⟨hfinished, hresult⟩ := hstands.step_error ha
    rw [run_append, run_cons, run_of_isFinished hfinished]
    exact hresult

/-- What becomes of a request is the course of its events, and nothing else. -/
theorem course_iff_run {growth : Growth} (stream : StreamId) :
    Course es growth bs ↔
      (run es { stream }).output.growth = growth ∧ (run es { stream }).written = bs := by
  constructor
  · exact fun h => run_of_course h stream
  · rintro ⟨rfl, rfl⟩
    obtain ⟨growth, bs, hcourse⟩ := exists_course es
    obtain ⟨rfl, rfl⟩ := run_of_course hcourse stream
    exact hcourse

end Projection

/-! ### Runs with reads -/

/-- What is done to a request: its stream brings an event, or somebody reads from its output. -/
inductive RequestAct where
  | event (e : StreamEvent)
  | read (r : ReadRequest)
  deriving DecidableEq, Repr

/-- The events among what is done to a request. -/
def RequestAct.event? : RequestAct → Option StreamEvent
  | .event e => some e
  | .read _ => none

/-- A request, what has been read from it, and what it has told. -/
structure RequestRun where
  projection : Projection
  taken : Bytes := []
  told : List Notice := []

namespace RequestRun

def act (t : RequestRun) : RequestAct → RequestRun
  | .event e =>
    let (projection, notices) := t.projection.step e
    { t with projection, told := notices ++ t.told }
  | .read r =>
    let (reply, output) := t.projection.output.read r
    { t with
        projection := { t.projection with output }
        taken := t.taken ++ reply.consumed r }

def run (t : RequestRun) (acts : List RequestAct) : RequestRun := acts.foldl act t

/-- The request as it would be if nothing had been read. -/
def restored (t : RequestRun) : Projection := t.projection.prepend t.taken

theorem restored_read (t : RequestRun) (r : ReadRequest) :
    (t.act (.read r)).restored = t.restored := by
  have hheld := Accumulator.consumed_append_held r t.projection.output
  have hgrowth := Accumulator.growth_read r t.projection.output
  simp only [restored, act, Projection.prepend, List.append_assoc, hheld, hgrowth]

theorem restored_event (t : RequestRun) (e : StreamEvent) :
    (t.act (.event e)).restored = (t.restored.step e).1 := by
  simp only [restored, act, Projection.step_prepend]

/-- Reads have no bearing on what becomes of a request. -/
theorem restored_run (t : RequestRun) (acts : List RequestAct) :
    (t.run acts).restored = t.restored.run (acts.filterMap RequestAct.event?) := by
  induction acts generalizing t with
  | nil => rfl
  | cons a acts ih =>
    rw [run, List.foldl_cons, ← run, ih]
    cases a with
    | event e =>
      rw [restored_event]
      rfl
    | read r =>
      rw [restored_read]
      rfl

/-- The request and its output end together, and nothing was written after the end. -/
structure Lawful (t : RequestRun) : Prop where
  coherent : t.projection.Coherent
  harmless : Notice.Harmless t.told

theorem Lawful.act {t : RequestRun} (h : t.Lawful) (a : RequestAct) : (t.act a).Lawful := by
  cases a with
  | event e =>
    constructor
    · exact Projection.coherent_step h.coherent e
    · exact (Projection.harmless_step h.coherent e).append h.harmless
  | read r =>
    constructor
    · have hcoherent := h.coherent
      rw [Projection.Coherent, ← Accumulator.growth_read r] at hcoherent
      exact hcoherent
    · exact h.harmless

theorem Lawful.run {t : RequestRun} (h : t.Lawful) (acts : List RequestAct) :
    (t.run acts).Lawful := by
  induction acts generalizing t with
  | nil => exact h
  | cons a acts ih => exact ih (h.act a)

/-- A request and its output after some events of its stream, whatever was read in between. -/
structure InStep (t : RequestRun) (es : List StreamEvent) : Prop where
  /-- The request is finished exactly when its output has ended. -/
  together : t.projection.isFinished = true ↔ t.projection.output.isComplete = true
  /-- No event was written to an output that had ended. -/
  undropped : ∀ length, Notice.writeDropped length ∉ t.told
  /-- Events after the end change nothing, and nobody hears of them. -/
  settled : t.projection.isFinished = true → ∀ e, t.projection.step e = (t.projection, [])
  complete_iff : t.projection.output.growth = .complete ↔
    ∃ whole rest bs, es = whole ++ rest ∧ StreamEvent.Makes whole bs
  failed_iff : t.projection.output.growth = .failed ↔
    ∃ valid e rest bs, es = valid ++ e :: rest ∧ StreamEvent.Begins valid bs ∧
      StreamEvent.Breaks valid e
  /-- What was read and what is held are the bytes of the events up to the one that finished it. -/
  course_iff : ∀ growth bs, StreamEvent.Course es growth bs ↔
    t.projection.output.growth = growth ∧ t.taken ++ t.projection.written = bs

/--
A request is finished exactly when its output has ended, and nothing happens to either afterwards.
It is complete exactly when its first events make a whole request, and it has failed exactly when an
event has broken the request that those before it began. What was read of it and what it still holds
are the bytes of these events, and no others.
-/
theorem stays_in_step (stream : StreamId) (acts : List RequestAct) :
    (run { projection := { stream } } acts).InStep (acts.filterMap RequestAct.event?) := by
  have hlawful : (run { projection := { stream } } acts).Lawful :=
    Lawful.run ⟨Projection.coherent_new stream, .nil⟩ acts
  have hrestored := restored_run { projection := { stream } } acts
  have hfresh : restored { projection := { stream } } = { stream } := Projection.prepend_nil _
  rw [hfresh] at hrestored
  generalize run { projection := { stream } } acts = t at hlawful hrestored ⊢
  generalize acts.filterMap RequestAct.event? = es at hrestored ⊢
  have hcourse : ∀ growth bs, StreamEvent.Course es growth bs ↔
      t.projection.output.growth = growth ∧ t.taken ++ t.projection.written = bs := by
    intro growth bs
    rw [Projection.course_iff_run stream, ← hrestored]
    rfl
  have hown := (hcourse _ _).mpr ⟨rfl, rfl⟩
  constructor
  · rw [Accumulator.isComplete, bne_iff_ne]
    exact hlawful.coherent
  · intro length hmem
    exact Option.some_ne_none _ (hlawful.harmless _ hmem)
  · exact fun hfinished e => Projection.step_of_isFinished hfinished e
  · constructor
    · intro hcomplete
      rw [hcomplete] at hown
      cases hown with
      | made h rest => exact ⟨_, rest, _, rfl, h⟩
    · rintro ⟨whole, rest, bs, rfl, h⟩
      exact ((hcourse _ _).mp (.made h rest)).1
  · constructor
    · intro hfailed
      rw [hfailed] at hown
      cases hown with
      | broken h hbreaks rest => exact ⟨_, _, rest, _, rfl, h, hbreaks⟩
    · rintro ⟨valid, e, rest, bs, rfl, h, hbreaks⟩
      exact ((hcourse _ _).mp (.broken h hbreaks rest)).1
  · exact hcourse

/-- Headers that announce no length, and of which one concerns a single hop. -/
def lengthless : HeaderBlock :=
  ⟨[("method", "POST"), ("url", "/u"), ("version", "HTTP/1.1"), ("connection", "close"),
    ("host", "a")]⟩

/-- Headers that announce four bytes. -/
def announced : HeaderBlock :=
  ⟨[("method", "PUT"), ("url", "/x"), ("version", "HTTP/1.1"), ("content-length", "4")]⟩

/-- An upload in pieces, of which parts are read while it comes. Its stream is reset afterwards. -/
def uploaded : List RequestAct :=
  [.event (.opened lengthless false), .read ⟨.bytes, .block, 18⟩,
    .event (.data (Bytes.utf8 "ab") false), .read ⟨.speculative, .block, 4⟩,
    .event (.data [] false), .event (.data (Bytes.utf8 "0123456789abcdefg") true),
    .read ⟨.bytes, .nonBlock, 7⟩, .event (.reset 2)]

/-- An upload that is opened again before it has brought all that it has announced. -/
def reopened : List RequestAct :=
  [.event (.opened announced false), .event (.data (Bytes.utf8 "ab") false),
    .read ⟨.bytes, .block, 3⟩, .event (.opened announced false),
    .event (.data (Bytes.utf8 "cd") true)]

/-- The first upload is complete, in chunks; the second has failed, and its bytes are as they
came. -/
theorem uploads_stay_in_step :
    let made := run { projection := { stream := 1 } } uploaded
    let broken := run { projection := { stream := 3 } } reopened
    (made.projection.output.growth = .complete ∧
      made.taken = Bytes.utf8 "POST /u HTTP/1.1\r\nhost: a" ∧
      made.taken ++ made.projection.written =
        Bytes.utf8 "POST /u HTTP/1.1\r\nhost: a\r\ntransfer-encoding: chunked\r\n\r\n" ++
          Bytes.utf8 "2\r\nab\r\n11\r\n0123456789abcdefg\r\n0\r\n\r\n") ∧
    broken.projection.output.growth = .failed ∧
      broken.taken = Bytes.utf8 "PUT" ∧
      broken.taken ++ broken.projection.written =
        Bytes.utf8 "PUT /x HTTP/1.1\r\ncontent-length: 4\r\n\r\n" ++ Bytes.utf8 "ab" := by
  intro made broken
  have hmade : StreamEvent.Course (uploaded.filterMap RequestAct.event?) .complete
      (Bytes.utf8 "POST /u HTTP/1.1\r\nhost: a\r\ntransfer-encoding: chunked\r\n\r\n" ++
        Bytes.utf8 "2\r\nab\r\n11\r\n0123456789abcdefg\r\n0\r\n\r\n") := by
    have hhead : RequestHead.render lengthless (Projection.isChunked lengthless false) = .ok
        (Bytes.utf8 "POST /u HTTP/1.1\r\nhost: a\r\ntransfer-encoding: chunked\r\n\r\n") := by
      decide +kernel
    have hbody : [Bytes.utf8 "ab", [], Bytes.utf8 "0123456789abcdefg"].flatMap
          (StreamEvent.coded (Projection.isChunked lengthless false)) ++
        StreamEvent.ending (Projection.isChunked lengthless false) =
          Bytes.utf8 "2\r\nab\r\n11\r\n0123456789abcdefg\r\n0\r\n\r\n" := by
      decide +kernel
    rw [← hbody, ← List.append_assoc]
    exact .made (.bodied hhead [Bytes.utf8 "ab", []] _) [.reset 2]
  have hbroken : StreamEvent.Course (reopened.filterMap RequestAct.event?) .failed
      (Bytes.utf8 "PUT /x HTTP/1.1\r\ncontent-length: 4\r\n\r\n" ++ Bytes.utf8 "ab") := by
    have hhead : RequestHead.render announced (Projection.isChunked announced false) = .ok
        (Bytes.utf8 "PUT /x HTTP/1.1\r\ncontent-length: 4\r\n\r\n") := by
      decide +kernel
    exact .broken (.opened hhead [Bytes.utf8 "ab"])
      (.openedAgain (List.cons_ne_nil _ _) announced false) [.data (Bytes.utf8 "cd") true]
  obtain ⟨hcomplete, hwhole⟩ := ((stays_in_step 1 uploaded).course_iff _ _).mp hmade
  obtain ⟨hfailed, hpart⟩ := ((stays_in_step 3 reopened).course_iff _ _).mp hbroken
  refine ⟨⟨hcomplete, ?_, hwhole⟩, hfailed, ?_, hpart⟩
  · decide +kernel
  · decide +kernel

end RequestRun
end RequestFeed
