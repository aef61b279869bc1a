import RequestFeed.Bytes
import RequestFeed.Text.Escape
/-!
# Header blocks

The header block opens a stream: ordered pairs of a name and a value. Names are lowercase and
unique. A value may hold several values, separated by NUL.

*Wire form.* The number of headers in two bytes, and for each header the length of the name in
two bytes, the name, the length of the value in two bytes, and the value. Numbers are
little-endian, texts are UTF-8.
-/

namespace RequestFeed

/-- The parts of the wire form of a header block. -/
inductive HeaderPart where
  | count
  | name
  | value
  deriving DecidableEq, Repr

def HeaderPart.label : HeaderPart → String
  | .count => "header count"
  | .name => "header name"
  | .value => "header value"

/-- Why a header is not accepted, or a byte string is not a header block. -/
inductive HeaderError where
  /-- A name is empty or too long. -/
  | nameLength (length : Nat)
  /-- A name holds a character that names must not hold. -/
  | invalidName (name : String)
  | valueTooLong (name : String) (length : Nat)
  | duplicate (name : String)
  /-- There are more headers than can be counted in two bytes. -/
  | tooMany
  | truncated (part : HeaderPart)
  | notUtf8 (part : HeaderPart)
  | trailing (length : Nat)
  deriving DecidableEq, Repr

def HeaderError.message : HeaderError → String
  | .nameLength length => s!"invalid header name length: {length}"
  | .invalidName name => s!"invalid header name '{Escape.asciiOnly name}'"
  | .valueTooLong name length => s!"value of '{name}' too long ({length} bytes)"
  | .duplicate name => s!"duplicate header '{name}'"
  | .tooMany => "too many headers"
  | .truncated part => s!"truncated {part.label}"
  | .notUtf8 part => s!"{part.label} is not utf-8"
  | .trailing length => s!"{length} trailing bytes"

/-- Headers in order. -/
structure HeaderBlock where
  entries : List (String × String) := []
  deriving DecidableEq, Repr

namespace HeaderBlock

/-- The largest number, and the largest length, that two bytes hold. -/
def limit : Nat := 65535

/-- A byte that may occur in a name: visible ASCII without uppercase letters and the colon. -/
def isNameByte (b : UInt8) : Bool :=
  0x21 ≤ b && b ≤ 0x7e && !(0x41 ≤ b && b ≤ 0x5a) && b != 0x3a

def checkName (name : String) : Except HeaderError Unit :=
  if name.utf8ByteSize = 0 ∨ limit < name.utf8ByteSize then
    .error (.nameLength name.utf8ByteSize)
  else if (Bytes.utf8 name).all isNameByte then .ok ()
  else .error (.invalidName name)

def get? (name : String) (block : HeaderBlock) : Option String := block.entries.lookup name

/-- Adds a header at the end, unless the name, the value or their number is not allowed. -/
def insert (name value : String) (block : HeaderBlock) : Except HeaderError HeaderBlock := do
  checkName name
  if limit < value.utf8ByteSize then
    throw (.valueTooLong name value.utf8ByteSize)
  if (block.get? name).isSome then
    throw (.duplicate name)
  if limit ≤ block.entries.length then
    throw .tooMany
  return ⟨block.entries ++ [(name, value)]⟩

/-- A block with these headers, inserted in order. -/
def ofList (headers : List (String × String)) : Except HeaderError HeaderBlock :=
  headers.foldlM (fun block header => block.insert header.1 header.2) {}

/-- A text with its length in front. -/
def encodeField (s : String) : Bytes := Bytes.little 2 s.utf8ByteSize ++ Bytes.utf8 s

def encodeEntry (entry : String × String) : Bytes := encodeField entry.1 ++ encodeField entry.2

def encode (block : HeaderBlock) : Bytes :=
  Bytes.little 2 block.entries.length ++ block.entries.flatMap encodeEntry

/-- Reads a number of two bytes. -/
def decodeNumber (part : HeaderPart) (bs : Bytes) : Except HeaderError (Nat × Bytes) :=
  match Bytes.cut? 2 bs with
  | none => .error (.truncated part)
  | some (number, rest) => .ok (Bytes.ofLittle number, rest)

/-- Reads a text with its length in front. -/
def decodeField (part : HeaderPart) (bs : Bytes) : Except HeaderError (String × Bytes) := do
  let (length, rest) ← decodeNumber part bs
  match Bytes.cut? length rest with
  | none => .error (.truncated part)
  | some (raw, rest) =>
    match Bytes.text? raw with
    | none => .error (.notUtf8 part)
    | some text => .ok (text, rest)

/-- Reads `n` headers and inserts them. -/
def decodeEntries : Nat → HeaderBlock → Bytes → Except HeaderError (HeaderBlock × Bytes)
  | 0, block, bs => .ok (block, bs)
  | n + 1, block, bs => do
    let (name, bs) ← decodeField .name bs
    let (value, bs) ← decodeField .value bs
    let block ← block.insert name value
    decodeEntries n block bs

/-- Reads a block that takes up the whole byte string. -/
def decode (bs : Bytes) : Except HeaderError HeaderBlock := do
  let (count, bs) ← decodeNumber .count bs
  let (block, rest) ← decodeEntries count {} bs
  if rest ≠ [] then
    throw (.trailing rest.length)
  return block

end HeaderBlock
end RequestFeed
