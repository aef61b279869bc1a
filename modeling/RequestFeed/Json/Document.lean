import RequestFeed.Bytes
import RequestFeed.Json.Token
/-!
# JSON documents

The value that the words of a text make. The words are read one after the other by a machine that
keeps the arrays and objects that are still open.
-/

namespace RequestFeed

/-- An array or an object that is still open, with what it holds so far, the latest first. -/
inductive JsonOpen where
  | array (items : List Json)
  /-- The name is that of the member whose value comes next. -/
  | object (members : List (String × Json)) (name : String)

/-- What may come next. -/
inductive JsonExpected where
  | value
  /-- The first item of an array, or its end. -/
  | itemOrEnd
  /-- The first name of an object, or its end. -/
  | nameOrEnd
  | name
  /-- The colon after a name. -/
  | colon
  /-- A comma, or the end of what is open. -/
  | commaOrEnd
  | nothing

/-- A document that has been read in part. -/
structure JsonDraft where
  /-- What is open, the innermost first. -/
  opened : List JsonOpen := []
  expected : JsonExpected := .value
  /-- The whole value, once it is there. -/
  result : Option Json := none

namespace JsonDraft

/-- How many arrays and objects may be open at once. -/
def maxDepth : Nat := 127

def put (v : Json) (d : JsonDraft) : JsonDraft :=
  match d.opened with
  | [] => { opened := [], expected := .nothing, result := some v }
  | .array items :: outer =>
    { d with opened := .array (v :: items) :: outer, expected := .commaOrEnd }
  | .object members name :: outer =>
    { d with opened := .object ((name, v) :: members) name :: outer, expected := .commaOrEnd }

def begin (o : JsonOpen) (next : JsonExpected) (d : JsonDraft) : Option JsonDraft :=
  if d.opened.length < maxDepth then
    some { d with opened := o :: d.opened, expected := next }
  else none

/-- Reads the first word of a value. -/
def value (t : JsonToken) (d : JsonDraft) : Option JsonDraft :=
  match t with
  | .null => some (d.put .null)
  | .bool b => some (d.put (.bool b))
  | .number n => some (d.put (.number n))
  | .text s => some (d.put (.text s))
  | .beginArray => d.begin (.array []) .itemOrEnd
  | .beginObject => d.begin (.object [] "") .nameOrEnd
  | _ => none

/-- Closes the innermost array or object. -/
def close (t : JsonToken) (d : JsonDraft) : Option JsonDraft :=
  match t, d.opened with
  | .endArray, .array items :: outer => some (put (.array items.reverse) { d with opened := outer })
  | .endObject, .object members _ :: outer =>
    some (put (.object members.reverse) { d with opened := outer })
  | _, _ => none

def name (t : JsonToken) (d : JsonDraft) : Option JsonDraft :=
  match t, d.opened with
  | .text s, .object members _ :: outer =>
    some { d with opened := .object members s :: outer, expected := .colon }
  | _, _ => none

def comma (d : JsonDraft) : Option JsonDraft :=
  match d.opened with
  | .array _ :: _ => some { d with expected := .value }
  | .object _ _ :: _ => some { d with expected := .name }
  | [] => none

def step (d : JsonDraft) (t : JsonToken) : Option JsonDraft :=
  match d.expected, t with
  | .value, t => d.value t
  | .itemOrEnd, .endArray => d.close t
  | .itemOrEnd, t => d.value t
  | .nameOrEnd, .endObject => d.close t
  | .nameOrEnd, t => d.name t
  | .name, t => d.name t
  | .colon, .colon => some { d with expected := .value }
  | .commaOrEnd, .comma => d.comma
  | .commaOrEnd, t => d.close t
  | _, _ => none

end JsonDraft

namespace Json

/-- The value that words make. -/
def ofTokens? (ts : List JsonToken) : Option Json := do
  let d ← ts.foldlM JsonDraft.step {}
  d.result

/-- The value that a UTF-8 text holds. -/
def ofBytes? (bs : Bytes) : Option Json := do
  let text ← Bytes.text? bs
  let tokens ← JsonToken.ofChars? text.toList
  ofTokens? tokens

end Json
end RequestFeed
