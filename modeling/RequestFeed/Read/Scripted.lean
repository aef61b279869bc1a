import RequestFeed.Read.Source
/-!
# Scripted sources and readers

Sources and readers that answer from a list. Every finite behaviour of a source or a reader is
the behaviour of one of these.
-/

namespace RequestFeed

/-- One entry of the script of a reader. -/
inductive ReaderItem where
  /-- Bytes to hand out; as many as fit at a time. -/
  | bytes (bytes : Bytes)
  | failure (error : IoError)
  deriving DecidableEq, Repr

/-- Every byte counts one, and the entry one more. -/
def ReaderItem.weight : ReaderItem → Nat
  | .bytes bs => bs.length + 1
  | .failure _ => 1

/-- A reader that answers from a list and then is at its end. -/
structure ScriptedReader where
  script : List ReaderItem
  deriving DecidableEq, Repr

namespace ScriptedReader

def push (item : ReaderItem) (r : ScriptedReader) : ScriptedReader := ⟨r.script ++ [item]⟩

/-- Answers from the first entry; bytes that do not fit stay. -/
def read (n : Nat) (r : ScriptedReader) : Except IoError Bytes × ScriptedReader :=
  match r.script with
  | [] => (.ok [], r)
  | .failure e :: rest => (.error e, ⟨rest⟩)
  | .bytes bs :: rest =>
    match bs.drop n with
    | [] => (.ok bs, ⟨rest⟩)
    | left => (.ok (bs.take n), ⟨.bytes left :: rest⟩)

def remaining (r : ScriptedReader) : Nat := total ReaderItem.weight r.script

instance : Reader ScriptedReader where
  read := read
  remaining := remaining
  length_read_le n r bs h := by
    unfold read at h
    split at h
    · simp only [Except.ok.injEq] at h
      simp [← h]
    · simp at h
    next data rest hs =>
      cases hd : data.drop n with
      | nil =>
        simp only [hd, Except.ok.injEq] at h
        subst h
        simpa using hd
      | cons b left =>
        simp only [hd, Except.ok.injEq] at h
        subst h
        exact List.length_take_le _ _
  length_read_add_remaining_le n r bs h := by
    unfold read at h ⊢
    split at h
    · simp only [Except.ok.injEq] at h
      simp [← h]
    next => simp at h
    next data rest hs =>
      cases hd : data.drop n with
      | nil =>
        simp only [hd, Except.ok.injEq] at h
        subst h
        simp [remaining, hs, ReaderItem.weight]
      | cons b left =>
        simp only [hd, Except.ok.injEq] at h
        subst h
        have hl := congrArg List.length hd
        simp only [List.length_drop, List.length_cons] at hl
        simp [remaining, hs, ReaderItem.weight]
        omega
  remaining_le_of_error n r e h := by
    unfold read at h ⊢
    split at h
    · simp at h
    next rest hs => simp [remaining, hs, ReaderItem.weight]
    · split at h <;> simp at h
  remaining_lt_of_interrupted n r e h _ := by
    unfold read at h ⊢
    split at h
    · simp at h
    next rest hs => simp [remaining, hs, ReaderItem.weight]
    · split at h <;> simp at h

end ScriptedReader

/-- One entry of the script of a source. -/
inductive SourceItem where
  /-- Bytes to hand out; as many as the limit lets through at a time. -/
  | bytes (bytes : Bytes)
  /-- A fixed answer, whatever the limit. -/
  | answer (output : Brigade) (status : Status)
  deriving DecidableEq, Repr

def SourceItem.size : SourceItem → Nat
  | .bytes bs => bs.length
  | .answer output _ => output.size

/-- A source that answers from a list and remembers what it was asked. -/
structure ScriptedSource where
  script : List SourceItem
  /-- Statuses of the first speculative reads. -/
  probes : List Status := []
  /-- What the first speculative read that succeeds negotiates. -/
  negotiates : Option ProtocolState := none
  aborted : Bool := false
  /-- The requests so far, the latest first. -/
  calls : List ReadRequest := []
  deriving DecidableEq, Repr

namespace ScriptedSource

def push (item : SourceItem) (s : ScriptedSource) : ScriptedSource :=
  { s with script := s.script ++ [item] }

/-- Shows the first bytes of the script without consuming them. -/
def peek (limit : Nat) (s : ScriptedSource) : Reply × ScriptedSource :=
  let shown := match s.script with
    | .bytes bs :: _ => Bytes.limited limit bs
    | _ => []
  ({ Reply.ok shown with negotiated := s.negotiates }, { s with negotiates := none })

/-- Answers a speculative read: the statuses set aside for probes come first. -/
def probe (limit : Nat) (s : ScriptedSource) : Reply × ScriptedSource :=
  match s.probes with
  | .failed e :: rest => (Reply.failed e, { s with probes := rest })
  | .ok :: rest => peek limit { s with probes := rest }
  | [] => peek limit s

def take (limit : Nat) (s : ScriptedSource) : Reply × ScriptedSource :=
  match s.script with
  | [] => (Reply.failed .eof, s)
  | .bytes bs :: rest =>
    let taken := Bytes.limited limit bs
    match bs.drop taken.length with
    | [] => (Reply.ok taken, { s with script := rest })
    | left => (Reply.ok taken, { s with script := .bytes left :: rest })
  | .answer output status :: rest => ({ output, status }, { s with script := rest })

def read (r : ReadRequest) (s : ScriptedSource) : Reply × ScriptedSource :=
  let s := { s with calls := r :: s.calls }
  match r.mode with
  | .init => ({ output := [], status := .ok }, s)
  | .speculative => probe r.limit s
  | .bytes | .line | .exhaustive => take r.limit s

def remaining (s : ScriptedSource) : Nat := total SourceItem.size s.script

theorem size_take_add_remaining_le (limit : Nat) (s : ScriptedSource) :
    Brigade.size (take limit s).1.output + remaining (take limit s).2 ≤ remaining s := by
  unfold take
  split
  · simp [Reply.failed, Brigade.size]
  next bs rest hs =>
    have hle := Bytes.length_limited_le limit bs
    dsimp only
    split
    next hd =>
      simpa [Reply.ok, remaining, hs, SourceItem.size, Brigade.size_eq_length_bytes] using hle
    next left hd =>
      simp [Reply.ok, remaining, hs, SourceItem.size, Brigade.size_eq_length_bytes]
      omega
  next output status rest hs =>
    simp [remaining, hs, SourceItem.size]

theorem remaining_probe (limit : Nat) (s : ScriptedSource) :
    remaining (probe limit s).2 = remaining s := by
  unfold probe
  split <;> rfl

theorem remaining_read_le (r : ReadRequest) (s : ScriptedSource) :
    remaining (read r s).2 ≤ remaining s := by
  have htake := size_take_add_remaining_le r.limit { s with calls := r :: s.calls }
  have hprobe := remaining_probe r.limit { s with calls := r :: s.calls }
  unfold read
  split
  · exact Nat.le_refl _
  · exact Nat.le_of_eq hprobe
  all_goals exact Nat.le_trans (Nat.le_add_left _ _) htake

instance : Source ScriptedSource where
  read := read
  violation _ _ := none
  aborted := ScriptedSource.aborted
  remaining := remaining
  violation_eq_none _ _ _ := rfl
  size_read_add_remaining_le r s h := by
    unfold read
    rw [h]
    exact size_take_add_remaining_le r.limit _
  remaining_read_le := remaining_read_le

end ScriptedSource
end RequestFeed
