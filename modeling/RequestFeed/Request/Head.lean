import RequestFeed.Request.Error
/-!
# Request heads

The request line and the header lines of a request, made from the header block that opened its
stream.

*Rules.*
* Three headers, `method`, `url` and `version`, make the request line and are not header lines.
* Headers that concern only one hop of the way are left out.
* A header with several values becomes several lines.
* Nothing that comes from a header can end a line or a part of the request line.
-/

namespace RequestFeed
namespace RequestHead

def methodName : String := "method"

def urlName : String := "url"

def versionName : String := "version"

/-- The headers that make the request line. -/
def lineNames : List String := [methodName, urlName, versionName]

/-- The headers that concern only one hop of the way. -/
def hopNames : List String := ["connection", "keep-alive", "proxy-connection", "transfer-encoding"]

/-- The header that announces the length of the body. -/
def lengthName : String := "content-length"

def lineEnd : Bytes := [0x0d, 0x0a]

/-- A byte that no part of the request line holds: white space or a control byte. -/
def isBreaking (b : UInt8) : Bool := b ≤ 0x20 || b == 0x7f

/-- A byte that no header line holds. -/
def isLineBreak (b : UInt8) : Bool := b == 0x0d || b == 0x0a

def part (headers : HeaderBlock) (name : String) : Except ProjectionError String :=
  match headers.get? name with
  | none => .error (.missingPart name)
  | some value =>
    if value = "" ∨ (Bytes.utf8 value).any isBreaking then .error (.invalidPart name value)
    else .ok value

/-- The header becomes lines of its own. -/
def isForwarded (name : String) : Bool := !lineNames.contains name && !hopNames.contains name

def line (name : String) (value : Bytes) : Bytes :=
  Bytes.utf8 name ++ [0x3a, 0x20] ++ value ++ lineEnd

/-- The lines of one header, one for each of its values. -/
def lines (name value : String) : Except ProjectionError Bytes :=
  if (Bytes.utf8 value).any isLineBreak then .error (.invalidHeaderValue name)
  else .ok ((Bytes.pieces 0 (Bytes.utf8 value)).flatMap (line name))

/-- The lines of all headers that have some. -/
def allLines : List (String × String) → Except ProjectionError Bytes
  | [] => .ok []
  | (name, value) :: rest =>
    if isForwarded name then do
      let first ← lines name value
      let others ← allLines rest
      return first ++ others
    else allLines rest

/-- The line that announces a body in chunks. -/
def chunkedLine : Bytes := line "transfer-encoding" (Bytes.utf8 "chunked")

/-- The head of a request, through the empty line. -/
def render (headers : HeaderBlock) (chunked : Bool) : Except ProjectionError Bytes := do
  let method ← part headers methodName
  let url ← part headers urlName
  let version ← part headers versionName
  let headerLines ← allLines headers.entries
  return Bytes.utf8 method ++ [0x20] ++ Bytes.utf8 url ++ [0x20] ++ Bytes.utf8 version ++
    lineEnd ++ headerLines ++ (if chunked then chunkedLine else []) ++ lineEnd

end RequestHead
end RequestFeed
