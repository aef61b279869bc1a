import RequestFeed.Frame.Basic
import RequestFeed.Json.Document
/-!
# Frame scripts

A script lists frames to be written, as a JSON array.

*Form of an entry.* An object whose member `kind` names the kind, and whose other members hold
the fields of that kind, in any order and at most once; members that the kind does not have are
ignored. Or an array of the kind and its fields in order, of which the last ones may be missing
where they have a default.
-/

namespace RequestFeed

inductive ScriptEntry where
  | opening (stream : StreamId) (headers : List (String × String)) (fin : Bool)
  | data (stream : StreamId) (text : String) (fin : Bool)
  | reset (stream : StreamId) (code : UInt32)
  | ping (text : String)
  | goAway (last : StreamId)
  deriving DecidableEq, Repr

namespace ScriptEntry

def word? (v : Json) : Option UInt32 := (v.natural? UInt32.size).map UInt32.ofNat

/-- The fields of each kind, in order. -/
def fieldsOf : String → List String
  | "open" => ["stream", "headers", "fin"]
  | "data" => ["stream", "data", "fin"]
  | "reset" => ["stream", "code"]
  | "ping" => ["data"]
  | "goaway" => ["last_stream"]
  | _ => []

/-- The entry of a kind with these fields. -/
def ofFields? (kind : String) (fields : List (String × Json)) : Option ScriptEntry :=
  match kind with
  | "open" => do
    let stream ← Json.required? word? "stream" fields
    let headers ← Json.required? (Json.array? Json.textPair?) "headers" fields
    let fin ← Json.optional? Json.bool? false "fin" fields
    return .opening stream headers fin
  | "data" => do
    let stream ← Json.required? word? "stream" fields
    let text ← Json.optional? Json.text? "" "data" fields
    let fin ← Json.optional? Json.bool? false "fin" fields
    return .data stream text fin
  | "reset" => do
    let stream ← Json.required? word? "stream" fields
    let code ← Json.optional? word? 0 "code" fields
    return .reset stream code
  | "ping" => do
    let text ← Json.optional? Json.text? "" "data" fields
    return .ping text
  | "goaway" => do
    let last ← Json.required? word? "last_stream" fields
    return .goAway last
  | _ => none

/-- The entry that a JSON value stands for. -/
def ofJson? : Json → Option ScriptEntry
  | .object members => do
    let kind ← Json.required? Json.text? "kind" members
    ofFields? kind members
  | .array (.text kind :: items) =>
    let fields := fieldsOf kind
    if items.length ≤ fields.length then ofFields? kind (fields.zip items) else none
  | _ => none

/-- The entries of the script that a file holds. -/
def ofBytes? (bs : Bytes) : Option (List ScriptEntry) :=
  (Json.ofBytes? bs).bind (Json.array? ofJson?)

def stream : ScriptEntry → StreamId
  | .opening stream _ _ | .data stream _ _ | .reset stream _ => stream
  | .ping _ | .goAway _ => StreamId.connection

def toFrame : ScriptEntry → Except HeaderError Frame
  | .opening stream headers fin =>
    (HeaderBlock.ofList headers).map fun block => Frame.ofHeaders stream block fin
  | .data stream text fin => .ok (Frame.ofData stream (Bytes.utf8 text) fin)
  | .reset stream code => .ok (Frame.ofReset stream code)
  | .ping text => .ok (Frame.ofPing (Bytes.utf8 text))
  | .goAway last => .ok (Frame.ofGoAway last)

end ScriptEntry
end RequestFeed
