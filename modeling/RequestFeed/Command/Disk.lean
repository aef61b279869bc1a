import RequestFeed.Read.Source
/-!
# Disks

What the commands see of the files around them: places that hold files and directories, paths that
lead to places, and files that are read through a buffer.

* `Disk.walk`: where the steps of a path lead. Each step but the last must lead to a directory,
  and a step back leads to the directory above.
* `Disk.find` and `Disk.destination`: what a path names for a reader, and the place that a writer
  gets.
-/

namespace RequestFeed

/-- Where the names that lead to a place start. -/
inductive PlaceStart where
  | root
  /-- So many directories above the working directory. -/
  | above (levels : Nat)
  deriving DecidableEq, Repr

/-- A place in the tree of directories. -/
structure Place where
  start : PlaceStart
  /-- The names to follow from the start, none of them a step in place or a step back. -/
  names : List String := []
  deriving DecidableEq, Repr

namespace Place

def working : Place := { start := .above 0 }

def child (name : String) (p : Place) : Place := { p with names := p.names ++ [name] }

/-- The directory above a place. The root is above itself. -/
def parent (p : Place) : Place :=
  if p.names ≠ [] then { p with names := p.names.dropLast }
  else
    match p.start with
    | .root => p
    | .above levels => { p with start := .above (levels + 1) }

/-- Where a step of a path leads from a place, if it leads anywhere. -/
def step (p : Place) : String → Place
  | "." => p
  | ".." => p.parent
  | name => p.child name

end Place

inductive DiskNode where
  | file (contents : Bytes)
  | directory
  /-- Something that cannot be opened. -/
  | unreadable (cause : IoError)
  deriving DecidableEq, Repr

structure Disk where
  nodes : List (Place × DiskNode)
  deriving DecidableEq, Repr

namespace Disk

/-- The longest name that can be in a directory, in bytes. -/
def longestName : Nat := 255

/-- The longest path that is looked at, in bytes. -/
def longestPath : Nat := 4095

/--
What every system has: a directory of devices, among them one that holds nothing, and a directory
for files that nobody keeps.
-/
def standard : List (Place × DiskNode) :=
  [({ start := .root, names := ["dev"] }, .directory),
    ({ start := .root, names := ["dev", "null"] }, .file []),
    ({ start := .root, names := ["tmp"] }, .directory)]

/-- Where the steps of a path start. -/
def startOf (path : String) : Place :=
  if path.startsWith "/" then { start := .root } else Place.working

def stepsOf (path : String) : List String := (path.splitOn "/").filter (· ≠ "")

/-- Where a path leads if all of it is there. -/
def placeOf (path : String) : Place := (stepsOf path).foldl Place.step (startOf path)

/-- A disk with these files and directories in the working directory. -/
def ofWorking (nodes : List (String × DiskNode)) : Disk :=
  ⟨nodes.map (fun (path, node) => (placeOf path, node)) ++ standard⟩

/-- A step that needs no name in the directory where it is taken. -/
def isDotStep (step : String) : Bool := step == "." || step == ".."

/-- What is in a place, if it is known. The root and the directories above are directories. -/
def node? (d : Disk) (p : Place) : Option DiskNode :=
  if p.names = [] then some .directory else d.nodes.lookup p

/-- What is in a place that a step has led to. -/
def open? (d : Disk) (p : Place) : Except IoError DiskNode :=
  match d.node? p with
  | none => .error .noSuchFile
  | some (.unreadable cause) => .error cause
  | some node => .ok node

/-- Steps can be taken from a place. -/
def checkDirectory (d : Disk) (p : Place) : Except IoError Unit := do
  match ← d.open? p with
  | .directory => return ()
  | _ => throw .notDirectory

/-- A directory can have a name. -/
def checkName (name : String) : Except IoError Unit :=
  if longestName < name.utf8ByteSize then .error .nameTooLong else .ok ()

/-- A path can be looked at. -/
def checkPath (path : String) : Except IoError Unit :=
  if path.toList.contains '\x00' then .error .nulInPath
  else if path = "" then .error .noSuchFile
  else if longestPath < path.utf8ByteSize then .error .nameTooLong
  else .ok ()

def enter (d : Disk) (p : Place) (step : String) : Except IoError Place := do
  d.checkDirectory p
  if !isDotStep step then
    checkName step
    let _ ← d.open? (p.step step)
  return p.step step

def walk (d : Disk) (p : Place) : List String → Except IoError Place
  | [] => .ok p
  | step :: rest => (d.enter p step).bind fun next => walk d next rest

/-- What a path names. A path with a slash at its end names a directory. -/
def find (path : String) (d : Disk) : Except IoError DiskNode := do
  checkPath path
  let place ← d.walk (startOf path) (stepsOf path)
  if path.endsWith "/" then
    d.checkDirectory place
  d.open? place

def read (path : String) (d : Disk) : Except IoError Bytes := do
  match ← d.find path with
  | .file contents => return contents
  | .directory => throw .directory
  | .unreadable cause => throw cause

/-- The place of a file that is to be created, or to be replaced if it is there. -/
def destination (path : String) (d : Disk) : Except IoError Place := do
  checkPath path
  let before ← d.walk (startOf path) (stepsOf path).dropLast
  d.checkDirectory before
  match (stepsOf path).getLast? with
  | none => throw .directory
  | some name =>
    if isDotStep name || path.endsWith "/" then
      throw .directory
    checkName name
    let place := before.child name
    match d.node? place with
    | some .directory => throw .directory
    | some (.unreadable cause) => throw cause
    | _ => return place

/-- The disk after a file was written; nothing happens if it cannot be written. -/
def write (path : String) (contents : Bytes) (d : Disk) : Disk :=
  match d.destination path with
  | .error _ => d
  | .ok place => ⟨d.nodes.filter (fun node => node.1 ≠ place) ++ [(place, .file contents)]⟩

/-- The names in the working directory that are files, with their contents. -/
def workingFiles (d : Disk) : List (String × Bytes) :=
  d.nodes.filterMap fun (place, node) =>
    match place.start, place.names, node with
    | .above 0, [name], .file contents => some (name, contents)
    | _, _, _ => none

/--
The places that a path leads through, if all of it is there, each with a path that ends there.
-/
def stations (path : String) : List (String × Place) :=
  let steps := stepsOf path
  (List.range steps.length).map fun n =>
    let taken := steps.take (n + 1)
    ((if path.startsWith "/" then "/" else "") ++ "/".intercalate taken,
      taken.foldl Place.step (startOf path))

end Disk

/-- A file that is being read through a buffer. A directory can be opened, but not read. -/
structure OpenFile where
  /-- Bytes that were read ahead. -/
  buffered : Bytes := []
  unread : Bytes
  isDirectory : Bool := false
  deriving DecidableEq, Repr

namespace OpenFile

/-- How much is read ahead. -/
def bufferSize : Nat := 8192

/-- Opens what a path names. -/
def ofPath (path : String) (d : Disk) : Except IoError OpenFile := do
  match ← d.find path with
  | .file contents => return { unread := contents }
  | .directory => return { unread := [], isDirectory := true }
  | .unreadable cause => throw cause

/-- Reads ahead when nothing is buffered. -/
def refill (f : OpenFile) : OpenFile :=
  if f.buffered = [] then
    { f with buffered := f.unread.take bufferSize, unread := f.unread.drop bufferSize }
  else f

/-- Reads up to `n` bytes. Large reads go past an empty buffer. -/
def read (n : Nat) (f : OpenFile) : Except IoError Bytes × OpenFile :=
  if f.isDirectory then (.error .directory, f)
  else if f.buffered = [] ∧ bufferSize ≤ n then
    (.ok (f.unread.take n), { f with unread := f.unread.drop n })
  else
    let f := f.refill
    (.ok (f.buffered.take n), { f with buffered := f.buffered.drop n })

/-- The bytes still to come. -/
def remaining (f : OpenFile) : Nat := f.buffered.length + f.unread.length

theorem remaining_refill (f : OpenFile) : f.refill.remaining = f.remaining := by
  unfold refill
  split
  next h =>
    simp only [remaining, h, List.length_take, List.length_drop, List.length_nil]
    omega
  · rfl

instance : Reader OpenFile where
  read := read
  remaining := remaining
  length_read_le n f bs h := by
    unfold read at h
    split at h
    · simp at h
    · split at h
      · simp only [Except.ok.injEq] at h
        subst h
        exact List.length_take_le _ _
      · simp only [Except.ok.injEq] at h
        subst h
        exact List.length_take_le _ _
  length_read_add_remaining_le n f bs h := by
    unfold read at h ⊢
    split at h
    · simp at h
    next hd =>
      rw [if_neg hd]
      split at h
      next hb =>
        rw [if_pos hb]
        simp only [Except.ok.injEq] at h
        subst h
        simp only [remaining, List.length_take, List.length_drop]
        omega
      next hb =>
        rw [if_neg hb]
        simp only [Except.ok.injEq] at h
        subst h
        rw [← remaining_refill f]
        simp only [remaining, List.length_take, List.length_drop]
        omega
  remaining_le_of_error n f e h := by
    unfold read at h ⊢
    split at h
    next hd => simp [hd]
    · split at h <;> simp at h
  remaining_lt_of_interrupted n f e h hi := by
    unfold read at h
    split at h
    · simp only [Except.error.injEq] at h
      subst h
      simp [IoError.directory] at hi
    · split at h <;> simp at h

end OpenFile
end RequestFeed
