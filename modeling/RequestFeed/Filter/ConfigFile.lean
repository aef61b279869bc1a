import RequestFeed.Filter.Config
import RequestFeed.Json.Document
import RequestFeed.Json.Quote
/-!
# Configuration files

A configuration as a JSON document.

*Form.* An object with some of the three members, each at most once and no others; or an array
with the values of the members in order, of which the last ones may be missing. What is missing
has its default.
-/

namespace RequestFeed
namespace FilterConfig

/-- The member that holds the size of a read. -/
def chunkName : String := "read_chunk_size"

/-- The member that holds the longest payload. -/
def payloadName : String := "max_payload_size"

/-- The member that holds the protocols. -/
def protocolsName : String := "multiplexed_protocols"

/-- Sizes are below this bound. -/
def sizeBound : Nat := UInt64.size

def size? : Json → Option Nat := Json.natural? sizeBound

def names? : Json → Option (List String) := Json.array? Json.text?

/-- The configuration with these members. -/
def ofMembers? (members : List (String × Json)) : Option FilterConfig := do
  let standard : FilterConfig := {}
  guard (members.all fun m => [chunkName, payloadName, protocolsName].contains m.1)
  let readChunkSize ← Json.optional? size? standard.readChunkSize chunkName members
  let maxPayloadSize ← Json.optional? size? standard.maxPayloadSize payloadName members
  let protocols ← Json.optional? names? standard.protocols protocolsName members
  return { readChunkSize, maxPayloadSize, protocols }

/-- The configuration that a JSON value stands for. -/
def ofJson? : Json → Option FilterConfig
  | .object members => ofMembers? members
  | .array items =>
    if items.length ≤ 3 then ofMembers? ([chunkName, payloadName, protocolsName].zip items)
    else none
  | _ => none

/-- The configuration that a file holds, after a check. -/
def load (contents : Except IoError Bytes) : Except FilterError FilterConfig :=
  match contents with
  | .error e => .error (.io e)
  | .ok bs =>
    match (Json.ofBytes? bs).bind ofJson? with
    | none => .error .json
    | some c =>
      match c.validate with
      | .ok () => .ok c
      | .error e => .error e

def render (c : FilterConfig) : String :=
  JsonQuote.object
    [(chunkName, toString c.readChunkSize), (payloadName, toString c.maxPayloadSize),
      (protocolsName, JsonQuote.array (c.protocols.map JsonQuote.quote))]

end FilterConfig
end RequestFeed
