import RequestFeed.Command.Compose
import RequestFeed.Command.Inspect
import RequestFeed.Proofs.Frame.Collecting
/-!
# Listing what was composed

The frames of a script are written without a look at the rules for frames; only their sizes are
checked. Of these rules a script can break one: an entry for a stream can name the number of the
connection. Listing the written file gives one row for every entry before the first such one.

*Results.*
* `ComposeCommand.writeAll_eq_ok`: what is in the file when all frames are written.
* `ScriptEntry.isValid_iff`: which entries make valid frames.
* `ComposeCommand.listed`: what listing a composed file prints.
-/

namespace RequestFeed

/-! ### Writing to a new file -/

/-- A new file takes all bytes at once. -/
theorem Sink.writeFrom_newFile (buffer : Bytes) (offset : Nat) (file : NewFile) :
    ∃ after, Sink.writeFrom buffer offset file = (.ok (), after) ∧
      after.contents = file.contents ++ buffer.drop offset := by
  by_cases ho : offset < buffer.length
  · obtain ⟨n, hn⟩ : ∃ n, (buffer.drop offset).length = n + 1 :=
      Nat.exists_eq_add_one.mpr (by rw [List.length_drop]; omega)
    have hwrite : Sink.write (buffer.drop offset) file =
        (.ok (n + 1), { file with pieces := buffer.drop offset :: file.pieces }) :=
      Prod.ext (congrArg Except.ok hn) rfl
    have hend : ¬ offset + (n + 1) < buffer.length := by
      rw [List.length_drop] at hn
      omega
    rw [Sink.writeFrom_eq, if_pos ho, hwrite]
    dsimp only
    rw [Sink.writeFrom_eq, if_neg hend]
    exact ⟨_, rfl, by simp [NewFile.contents]⟩
  · rw [Sink.writeFrom_eq, if_neg ho, List.drop_of_length_le (Nat.not_lt.mp ho), List.append_nil]
    exact ⟨file, rfl, rfl⟩

theorem Sink.flushAll_newFile (file : NewFile) : Sink.flushAll file = (.ok (), file) := by
  rw [Sink.flushAll_eq]
  rfl

/-- A frame that is not too long is written: its wire form is put at the end of the file. -/
theorem FrameWriter.write_newFile {f : Frame} {w : FrameWriter NewFile}
    (hmax : f.payload.length ≤ w.maxPayload) (hlong : f.payload.length ≤ Frame.maxEncodable) :
    ∃ after, w.write f = (.ok (), after) ∧
      after.sink.contents = w.sink.contents ++ f.bytes ∧ after.maxPayload = w.maxPayload := by
  obtain ⟨file, hwrite, hcontents⟩ := Sink.writeFrom_newFile f.bytes 0 w.sink
  rw [write, if_neg (Nat.not_lt.mpr hmax)]
  simp only [put, Frame.encode_eq_ok hlong, List.nil_append, send, hwrite, flush,
    Sink.flushAll_newFile]
  exact ⟨_, rfl, hcontents, rfl⟩

/-- A frame that is written is not too long. -/
theorem FrameWriter.fits_of_write_eq_ok {f : Frame} {w after : FrameWriter NewFile}
    (h : w.write f = (.ok (), after)) :
    f.payload.length ≤ w.maxPayload ∧ f.payload.length ≤ Frame.maxEncodable := by
  unfold write at h
  split at h
  · simp at h
  next hmax =>
    by_cases hlong : Frame.maxEncodable < f.payload.length
    · simp [put, Frame.encode, hlong] at h
    · exact ⟨Nat.not_lt.mp hmax, Nat.not_lt.mp hlong⟩

/-- Frames of which none is too long are written. -/
theorem ComposeCommand.writeAll_of_fits {frames : List Frame} {w : FrameWriter NewFile}
    (h : ∀ f ∈ frames,
      f.payload.length ≤ w.maxPayload ∧ f.payload.length ≤ Frame.maxEncodable) :
    (writeAll frames w).1 = .ok () := by
  induction frames generalizing w with
  | nil => rfl
  | cons f rest ih =>
    obtain ⟨⟨hmax, hlong⟩, hrest⟩ := List.forall_mem_cons.mp h
    obtain ⟨after, hwrite, -, hsame⟩ := FrameWriter.write_newFile hmax hlong
    simp only [writeAll, hwrite]
    exact ih (hsame ▸ hrest)

/-- When all frames are written, none is too long, and the file holds their wire forms. -/
theorem ComposeCommand.writeAll_eq_ok {frames : List Frame} {w : FrameWriter NewFile}
    (h : (writeAll frames w).1 = .ok ()) :
    (∀ f ∈ frames, f.payload.length ≤ w.maxPayload ∧ f.payload.length ≤ Frame.maxEncodable) ∧
      (writeAll frames w).2.sink.contents = w.sink.contents ++ frames.flatMap Frame.bytes := by
  induction frames generalizing w with
  | nil => exact ⟨by simp, by simp [writeAll]⟩
  | cons f rest ih =>
    rw [writeAll] at h ⊢
    cases hw : w.write f with
    | mk result after =>
      cases result with
      | error e => simp [hw] at h
      | ok _ =>
        obtain ⟨hmax, hlong⟩ := FrameWriter.fits_of_write_eq_ok hw
        obtain ⟨own, hown, hcontents, hsame⟩ := FrameWriter.write_newFile hmax hlong
        obtain rfl : after = own := congrArg Prod.snd (hw.symm.trans hown)
        simp only [hw] at h ⊢
        obtain ⟨hrest, hfile⟩ := ih h
        rw [hsame] at hrest
        refine ⟨List.forall_mem_cons.mpr ⟨⟨hmax, hlong⟩, hrest⟩, ?_⟩
        rw [hfile, hcontents, List.flatMap_cons, List.append_assoc]

theorem Frame.total_wireSize (frames : List Frame) :
    total wireSize frames = (frames.flatMap bytes).length := by
  induction frames with
  | nil => rfl
  | cons f rest ih => rw [total_cons, ih, List.flatMap_cons, List.length_append, length_bytes]

/-! ### Entries and the rules for frames -/

theorem Frame.flagsOf_and (fin : Bool) : flagsOf fin &&& ~~~FrameKind.finFlag = 0 := by
  cases fin <;> decide

namespace ScriptEntry

def kind : ScriptEntry → FrameKind
  | .opening .. => .opening
  | .data .. => .data
  | .reset .. => .reset
  | .ping _ => .ping
  | .goAway _ => .goAway

/-- The entry asks for the last frame of a stream. -/
def fin : ScriptEntry → Bool
  | .opening _ _ fin | .data _ _ fin => fin
  | .reset .. | .ping _ | .goAway _ => false

/-- The entry is for a stream, but names the number of the connection. -/
def isMisplaced (e : ScriptEntry) : Bool := !e.kind.isConnectionLevel && e.stream.isConnection

variable {e : ScriptEntry} {f : Frame}

/-- What the frame of an entry says, apart from the payload. -/
theorem frame_of_toFrame (h : e.toFrame = .ok f) :
    f.kind = e.kind ∧ f.flags = Frame.flagsOf e.fin ∧ f.stream = e.stream ∧
      (e.kind.carriesCode = true → f.payload.length = 4) := by
  cases e with
  | opening stream headers fin =>
    unfold toFrame at h
    cases hblock : HeaderBlock.ofList headers with
    | error cause => simp [hblock, Except.map] at h
    | ok block =>
      simp only [hblock, Except.map, Except.ok.injEq] at h
      subst h
      exact ⟨rfl, rfl, rfl, by simp [kind, FrameKind.carriesCode]⟩
  | data stream text fin =>
    cases h
    exact ⟨rfl, rfl, rfl, by simp [kind, FrameKind.carriesCode]⟩
  | ping text =>
    cases h
    exact ⟨rfl, rfl, rfl, by simp [kind, FrameKind.carriesCode]⟩
  | reset stream code =>
    cases h
    exact ⟨rfl, rfl, rfl, fun _ => Bytes.length_little 4 _⟩
  | goAway last =>
    cases h
    exact ⟨rfl, rfl, rfl, fun _ => Bytes.length_little 4 _⟩

/-- No entry asks for a flag that its kind does not have. -/
theorem flags_allowed (e : ScriptEntry) :
    Frame.flagsOf e.fin &&& ~~~e.kind.allowedFlags = 0 := by
  cases e with
  | opening stream headers fin => exact Frame.flagsOf_and fin
  | data stream text fin => exact Frame.flagsOf_and fin
  | reset | ping | goAway => exact UInt8.zero_and

theorem isFin_of_toFrame (h : e.toFrame = .ok f) : f.isFin = e.fin := by
  rw [Frame.isFin, (frame_of_toFrame h).2.1]
  cases e.fin <;> decide

/-- The frame of an entry is valid unless the entry is misplaced or the payload is too long. -/
theorem isValid_iff {max : Nat} (h : e.toFrame = .ok f) (hmax : f.payload.length ≤ max)
    (hl : f.payload.length ≤ Frame.maxEncodable) :
    f.IsValid max ↔ e.isMisplaced = false := by
  obtain ⟨hkind, hflags, hstream, hcode⟩ := frame_of_toFrame h
  have hplace : f.kind.isConnectionLevel = f.stream.isConnection ↔ e.isMisplaced = false := by
    rw [hkind, hstream]
    cases e with
    | ping | goAway => simp [isMisplaced, kind, stream, FrameKind.isConnectionLevel,
        StreamId.isConnection]
    | opening | data | reset =>
      simp only [isMisplaced, kind, FrameKind.isConnectionLevel, Bool.not_false, Bool.true_and]
      exact eq_comm
  rw [Frame.isValid_iff, Frame.Header.check_eq_ok_iff, ← hplace]
  constructor
  · exact fun hv => hv.1.2.2.1
  · intro hp
    refine ⟨⟨rfl, ?_, hp, ?_, hmax⟩, hl⟩
    · simpa only [Frame.header, hflags, hkind] using e.flags_allowed
    · simpa only [Frame.header, hkind] using hcode

end ScriptEntry

/-- What compose makes of a script: every entry with its frame. -/
theorem ComposeCommand.frames_eq_ok {script : List ScriptEntry} {fs : List Frame}
    (h : frames script = .ok fs) :
    ∃ made : List (ScriptEntry × Frame), made.map Prod.fst = script ∧ made.map Prod.snd = fs ∧
      ∀ m ∈ made, m.1.toFrame = .ok m.2 := by
  induction script generalizing fs with
  | nil =>
    cases h
    exact ⟨[], rfl, rfl, by simp⟩
  | cons entry rest ih =>
    rw [frames] at h
    cases hf : entry.toFrame with
    | error e => simp [hf] at h
    | ok f =>
      cases hr : frames rest with
      | error e => simp [hf, hr, Except.map] at h
      | ok others =>
        simp only [hf, hr, Except.map, Except.ok.injEq] at h
        subst h
        obtain ⟨made, hentries, hframes, hmade⟩ := ih hr
        refine ⟨(entry, f) :: made, ?_, ?_, ?_⟩
        · rw [List.map_cons, hentries]
        · rw [List.map_cons, hframes]
        · exact List.forall_mem_cons.mpr ⟨hf, hmade⟩

/-! ### Rows -/

/-- The row has this number, and tells the kind, the stream and the flag that the entry asks for,
and how long the payload is that was made for it. -/
structure FrameRow.Tells (r : FrameRow) (index : Nat) (entry : ScriptEntry) (f : Frame) : Prop where
  index : r.index = index
  kind : r.kind = entry.kind.name
  stream : r.stream = entry.stream
  fin : r.fin = entry.fin
  size : r.size = f.payload.length

/-- The rows tell of these entries and their frames, one row for each, numbered from `index` on. -/
inductive Listing : Nat → List (ScriptEntry × Frame) → List FrameRow → Prop where
  | nil (index : Nat) : Listing index [] []
  | cons {index : Nat} {entry : ScriptEntry} {f : Frame} {r : FrameRow}
    {made : List (ScriptEntry × Frame)} {rows : List FrameRow} (head : r.Tells index entry f)
    (tail : Listing (index + 1) made rows) : Listing index ((entry, f) :: made) (r :: rows)

theorem Listing.ofFrames {made : List (ScriptEntry × Frame)}
    (h : ∀ m ∈ made, m.1.toFrame = .ok m.2) (index : Nat) :
    Listing index made (FrameRow.ofFrames index (made.map Prod.snd)) := by
  induction made generalizing index with
  | nil => exact .nil index
  | cons m made ih =>
    obtain ⟨hm, hmade⟩ := List.forall_mem_cons.mp h
    obtain ⟨hkind, -, hstream, -⟩ := ScriptEntry.frame_of_toFrame hm
    refine .cons ?_ (ih hmade (index + 1))
    exact
      { index := rfl, kind := congrArg FrameKind.name hkind, stream := hstream
        fin := ScriptEntry.isFin_of_toFrame hm, size := rfl }

/-! ### Compose and inspect -/

namespace ComposeCommand

variable {c : ComposeCommand} {format : OutputFormat} {d : Disk} {raw : Bytes}
  {script : List ScriptEntry}

/-- A composition that succeeds has made a frame of every entry and written all of them. -/
theorem run_of_succeeds (hread : d.read c.script = .ok raw)
    (hscript : ScriptEntry.ofBytes? raw = some script) (h : (c.run format d).failure = none) :
    ∃ fs, frames script = .ok fs ∧ (writeAll fs { sink := {} }).1 = .ok () ∧
      c.run format d = write c.output format fs := by
  unfold run at h ⊢
  simp only [hread, hscript] at h ⊢
  cases hframes : frames script with
  | error failure => simp [hframes, CommandResult.failed] at h
  | ok fs =>
    cases hdest : d.destination c.output with
    | error e => simp [hframes, hdest, CommandResult.failed] at h
    | ok place =>
      simp only [hframes, hdest] at h ⊢
      refine ⟨fs, rfl, ?_, rfl⟩
      unfold write at h
      cases hw : (writeAll fs { sink := {} }).1 with
      | error e => simp [hw] at h
      | ok _ => rfl

/-- What a composition leaves behind when all frames are written. -/
theorem write_of_writeAll {fs : List Frame} (format : OutputFormat) (output : String)
    (h : (writeAll fs { sink := {} }).1 = .ok ()) :
    (write output format fs).failure = none ∧
      (write output format fs).written = some (output, fs.flatMap Frame.bytes) ∧
      (write output format fs).output = Bytes.utf8 (format.summary
        { output, frames := fs.length, bytes := (fs.flatMap Frame.bytes).length }) := by
  have hcontents : (writeAll fs { sink := {} }).2.sink.contents = fs.flatMap Frame.bytes :=
    (writeAll_eq_ok h).2
  unfold write
  simp only [h, hcontents, Frame.total_wireSize, and_self]

end ComposeCommand

/-- The frames before the first one that is not valid are those of the entries before the first one
that is misplaced. -/
theorem ScriptEntry.takeWhile_isValid {max : Nat} {made : List (ScriptEntry × Frame)}
    (h : ∀ m ∈ made, m.2.IsValid max ↔ m.1.isMisplaced = false) :
    (made.map Prod.snd).takeWhile (fun f => decide (f.IsValid max)) =
      (made.takeWhile fun m => !m.1.isMisplaced).map Prod.snd := by
  induction made with
  | nil => rfl
  | cons m made ih =>
    obtain ⟨hm, hmade⟩ := List.forall_mem_cons.mp h
    simp only [List.map_cons, List.takeWhile_cons, decide_eq_true_eq, Bool.not_eq_true', hm,
      ih hmade]
    split <;> rfl

/-- What listing a file prints that holds the frames made for some entries. -/
theorem InspectCommand.run_of_made {capture : String} (listing : OutputFormat) {d : Disk}
    {made : List (ScriptEntry × Frame)} (hmade : ∀ m ∈ made, m.1.toFrame = .ok m.2)
    (hsize : ∀ f ∈ made.map Prod.snd,
      f.payload.length ≤ Frame.defaultMaxPayload ∧ f.payload.length ≤ Frame.maxEncodable)
    (hfind : d.find capture = .ok (.file ((made.map Prod.snd).flatMap Frame.bytes))) :
    (∃ rows, Listing 0 (made.takeWhile fun m => !m.1.isMisplaced) rows ∧
      (run { capture } listing d).output = Bytes.utf8 (listing.frames rows)) ∧
    ((run { capture } listing d).failure = none ↔ ∀ m ∈ made, m.1.isMisplaced = false) := by
  have hopen : OpenFile.ofPath capture d =
      .ok { unread := (made.map Prod.snd).flatMap Frame.bytes } := by
    rw [OpenFile.ofPath, hfind]
    rfl
  have hvalid : ∀ m ∈ made, m.2.IsValid Frame.defaultMaxPayload ↔ m.1.isMisplaced = false := by
    intro m hm
    have hlength := hsize m.2 (List.mem_map_of_mem hm)
    exact ScriptEntry.isValid_iff (hmade m hm) hlength.1 hlength.2
  have hcollect := FrameReader.collect_flatMap_bytes Frame.defaultMaxPayload
    (OpenFile.gives ((made.map Prod.snd).flatMap Frame.bytes)) fun f hf => (hsize f hf).2
  rw [ScriptEntry.takeWhile_isValid hvalid, List.forall_mem_map] at hcollect
  unfold run
  simp only [hopen, Option.getD_none, Option.map_eq_none_iff, hcollect]
  refine ⟨⟨_, Listing.ofFrames ?_ 0, rfl⟩, forall₂_congr hvalid⟩
  exact fun m hm => hmade m (List.takeWhile_prefix _ |>.subset hm)

/--
Every entry of a script whose composition succeeds has been made a frame of, the written file holds
the wire forms of these frames in order, and its length is the one in the summary. Listing such a
file gives one row for every entry before the first one that is for a stream and names the number
of the connection, and it succeeds exactly when there is no such entry.
-/
theorem ComposeCommand.listed {c : ComposeCommand} {format : OutputFormat} {d : Disk} {raw : Bytes}
    {script : List ScriptEntry} (hread : d.read c.script = .ok raw)
    (hscript : ScriptEntry.ofBytes? raw = some script) (hok : (c.run format d).failure = none) :
    ∃ (made : List (ScriptEntry × Frame)) (contents : Bytes),
      made.map Prod.fst = script ∧ (∀ m ∈ made, m.1.toFrame = .ok m.2) ∧
      contents = (made.map Prod.snd).flatMap Frame.bytes ∧
      (c.run format d).written = some (c.output, contents) ∧
      (c.run format d).output = Bytes.utf8 (format.summary
        { output := c.output, frames := script.length, bytes := contents.length }) ∧
      ∀ (capture : String) (listing : OutputFormat) (after : Disk),
        after.find capture = .ok (.file contents) →
        (∃ rows, Listing 0 (made.takeWhile fun m => !m.1.isMisplaced) rows ∧
          (InspectCommand.run { capture } listing after).output =
            Bytes.utf8 (listing.frames rows)) ∧
        ((InspectCommand.run { capture } listing after).failure = none ↔
          ∀ e ∈ script, e.isMisplaced = false) := by
  obtain ⟨fs, hframes, hwritten, hrun⟩ := run_of_succeeds hread hscript hok
  obtain ⟨made, rfl, rfl, hmade⟩ := frames_eq_ok hframes
  obtain ⟨-, hfile, houtput⟩ := write_of_writeAll format c.output hwritten
  rw [hrun]
  refine ⟨made, _, rfl, hmade, rfl, hfile, ?_, ?_⟩
  · rw [houtput, List.length_map, List.length_map]
  · intro capture listing after hfind
    have hlisted := InspectCommand.run_of_made listing hmade (writeAll_eq_ok hwritten).1 hfind
    rwa [List.forall_mem_map]

/-! ### Names in the working directory -/

namespace Disk

/-- A path that is a name in the working directory and no more than that. -/
structure IsName (path : String) : Prop where
  steps : stepsOf path = [path]
  start : startOf path = .working
  step : Place.working.step path = Place.working.child path
  noSlash : path.endsWith "/" = false
  noDots : isDotStep path = false
  lookedAt : checkPath path = .ok ()
  fits : checkName path = .ok ()

variable {name : String}

/-- A path of one character that is not a slash is one step. -/
theorem stepsOf_of_one (hsome : ¬ String.Pos.Raw.atEnd name 0)
    (hslash : ¬ String.Pos.Raw.get name 0 == String.Pos.Raw.get "/" 0)
    (hend : String.Pos.Raw.atEnd name (String.Pos.Raw.next name (String.Pos.Raw.unoffsetBy 0 0)))
    (hwhole : [String.Pos.Raw.extract name 0
      (String.Pos.Raw.next name (String.Pos.Raw.unoffsetBy 0 0))].filter (· ≠ "") = [name]) :
    stepsOf name = [name] := by
  rw [stepsOf, String.splitOn, if_neg (by decide), String.splitOnAux, if_neg hsome, if_neg hslash,
    String.splitOnAux, if_pos hend]
  exact hwhole

theorem checkDirectory_working (d : Disk) : d.checkDirectory .working = .ok () := rfl

namespace IsName

theorem placeOf_eq (h : IsName name) : placeOf name = Place.working.child name := by
  rw [placeOf, h.steps, h.start, List.foldl_cons, List.foldl_nil, h.step]

theorem ofWorking_eq (h : IsName name) (node : DiskNode) :
    Disk.ofWorking [(name, node)] = ⟨(Place.working.child name, node) :: standard⟩ := by
  simp only [Disk.ofWorking, List.map_singleton, h.placeOf_eq, List.singleton_append]

/-- What a name names is what is in its place in the working directory. -/
theorem find_eq (h : IsName name) (d : Disk) :
    d.find name = d.open? (Place.working.child name) := by
  have henter : d.enter .working name =
      (d.open? (Place.working.child name)).map fun _ => Place.working.child name := by
    simp only [enter, checkDirectory_working, h.noDots, h.fits, h.step, bind, Except.bind, pure,
      Except.pure]
    cases d.open? (Place.working.child name) <;> rfl
  simp only [find, h.lookedAt, h.steps, h.start, h.noSlash, walk, henter, bind, Except.bind]
  cases hopen : d.open? (Place.working.child name) with
  | error e => rfl
  | ok node => exact hopen

/-- A file can be created under a name that nothing has. -/
theorem destination_eq (h : IsName name) {d : Disk}
    (hfree : d.node? (Place.working.child name) = none) :
    d.destination name = .ok (Place.working.child name) := by
  simp only [destination, h.lookedAt, h.steps, h.start, h.noSlash, h.noDots, h.fits, hfree,
    List.dropLast_singleton, walk, checkDirectory_working, List.getLast?_singleton, Bool.or_self,
    Bool.false_eq_true, if_false, bind, Except.bind]
  rfl

/-- The only file in the working directory is found under its name. -/
theorem find_ofWorking (h : IsName name) (contents : Bytes) :
    (Disk.ofWorking [(name, .file contents)]).find name = .ok (.file contents) := by
  have hlookup : (Disk.ofWorking [(name, .file contents)]).nodes.lookup
      (Place.working.child name) = some (.file contents) := by
    rw [h.ofWorking_eq]
    exact List.lookup_cons_self
  rw [h.find_eq, open?, node?, if_neg (by simp [Place.child]), hlookup]

end IsName

end Disk

/-! ### Two scripts -/

/-- A disk that holds a script and nothing else. -/
def scriptDisk (script : Bytes) : Disk := Disk.ofWorking [("s", .file script)]

/-- The name of the script. -/
theorem Disk.isName_s : IsName "s" where
  steps := stepsOf_of_one (by decide) (by decide) (by decide) (by decide)
  start := by decide +kernel
  step := by decide +kernel
  noSlash := by decide +kernel
  noDots := by decide +kernel
  lookedAt := rfl
  fits := rfl

/-- The name of the file that is composed. -/
theorem Disk.isName_c : IsName "c" where
  steps := stepsOf_of_one (by decide) (by decide) (by decide) (by decide)
  start := by decide +kernel
  step := by decide +kernel
  noSlash := by decide +kernel
  noDots := by decide +kernel
  lookedAt := rfl
  fits := rfl

theorem read_scriptDisk (script : Bytes) : (scriptDisk script).read "s" = .ok script := by
  rw [Disk.read, scriptDisk, Disk.isName_s.find_ofWorking]
  rfl

theorem destination_scriptDisk (script : Bytes) :
    (scriptDisk script).destination "c" = .ok (Place.working.child "c") := by
  refine Disk.isName_c.destination_eq ?_
  rw [scriptDisk, Disk.isName_s.ofWorking_eq]
  rfl

/-- The last bytes of a stream, and two frames for the connection. -/
def placedScript : Bytes := Bytes.utf8 "[[\"data\",1,\"x\",true],[\"ping\"],[\"goaway\",1]]"

/-- A script without misplaced entries is composed, and all of it is listed. -/
theorem placedScript_listed :
    (ComposeCommand.run ⟨"s", "c"⟩ .json (scriptDisk placedScript)).failure = none ∧
      ∃ contents,
        (ComposeCommand.run ⟨"s", "c"⟩ .json (scriptDisk placedScript)).written =
          some ("c", contents) ∧
        (InspectCommand.run { capture := "c" } .json
          (Disk.ofWorking [("c", .file contents)])).failure = none := by
  have hscript : ScriptEntry.ofBytes? placedScript =
      some [.data 1 "x" true, .ping "", .goAway 1] := by decide +kernel
  have hwrite : (ComposeCommand.write "c" .json
      [.ofData 1 (Bytes.utf8 "x") true, .ofPing (Bytes.utf8 ""), .ofGoAway 1]).failure = none :=
    (ComposeCommand.write_of_writeAll .json "c" (ComposeCommand.writeAll_of_fits (by decide))).1
  have hok : (ComposeCommand.run ⟨"s", "c"⟩ .json (scriptDisk placedScript)).failure = none := by
    simp only [ComposeCommand.run, read_scriptDisk, hscript, destination_scriptDisk]
    exact hwrite
  obtain ⟨made, contents, -, -, -, hwritten, -, hlisted⟩ :=
    ComposeCommand.listed (c := ⟨"s", "c"⟩) (read_scriptDisk placedScript) hscript hok
  refine ⟨hok, contents, hwritten, ?_⟩
  exact (hlisted "c" .json _ (Disk.isName_c.find_ofWorking contents)).2.mpr (by decide)

/-- A frame for a stream that has the number of the connection. -/
def misplacedScript : Bytes := Bytes.utf8 "[[\"data\",0]]"

/-- A misplaced entry is composed, but what was written for it cannot be listed. -/
theorem misplacedScript_not_listed :
    (ComposeCommand.run ⟨"s", "c"⟩ .json (scriptDisk misplacedScript)).failure = none ∧
      ∃ contents,
        (ComposeCommand.run ⟨"s", "c"⟩ .json (scriptDisk misplacedScript)).written =
          some ("c", contents) ∧
        (InspectCommand.run { capture := "c" } .json
          (Disk.ofWorking [("c", .file contents)])).failure ≠ none := by
  have hscript : ScriptEntry.ofBytes? misplacedScript = some [.data 0 "" false] := by
    decide +kernel
  have hrun : ComposeCommand.run ⟨"s", "c"⟩ .json (scriptDisk misplacedScript) =
      ComposeCommand.write "c" .json [.ofData 0 (Bytes.utf8 "") false] := by
    simp only [ComposeCommand.run, read_scriptDisk, hscript, destination_scriptDisk]
    rfl
  have hok : (ComposeCommand.writeAll [.ofData 0 (Bytes.utf8 "") false] { sink := {} }).1 =
      .ok () := ComposeCommand.writeAll_of_fits (by decide)
  have hmade : ∀ m ∈ [(ScriptEntry.data 0 "" false, Frame.ofData 0 (Bytes.utf8 "") false)],
      m.1.toFrame = .ok m.2 := List.forall_mem_singleton.mpr rfl
  have hlisted := InspectCommand.run_of_made .json hmade (ComposeCommand.writeAll_eq_ok hok).1
    (Disk.isName_c.find_ofWorking _)
  obtain ⟨hnone, hwritten, -⟩ := ComposeCommand.write_of_writeAll .json "c" hok
  rw [hrun]
  refine ⟨hnone, _, hwritten, ?_⟩
  exact fun hlist => absurd (hlisted.2.mp hlist) (by decide)

end RequestFeed
