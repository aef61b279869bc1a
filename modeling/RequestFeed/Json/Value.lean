import RequestFeed.Json.Number
/-!
# JSON values

A JSON document as data. Objects keep their members in order and keep members of the same name,
since whether a name may occur twice is for the reader of the object to say.
-/

namespace RequestFeed

inductive Json where
  | null
  | bool (value : Bool)
  | number (value : JsonNumber)
  | text (value : String)
  | array (items : List Json)
  | object (members : List (String × Json))
  deriving Repr

namespace Json

/-- The natural number below `bound` that a value is. -/
def natural? (bound : Nat) : Json → Option Nat
  | .number n => n.natural? bound
  | _ => none

def bool? : Json → Option Bool
  | .bool b => some b
  | _ => none

def text? : Json → Option String
  | .text s => some s
  | _ => none

/-- The items of an array, each read by `item`. -/
def array? {α : Type} (item : Json → Option α) : Json → Option (List α)
  | .array items => items.mapM item
  | _ => none

def textPair? : Json → Option (String × String)
  | .array [.text first, .text second] => some (first, second)
  | _ => none

/-- The values of all members with a name. -/
def valuesOf (name : String) (members : List (String × Json)) : List Json :=
  (members.filter fun m => m.1 = name).map Prod.snd

/-- The one value of a member that must be there, and only once. -/
def required? {α : Type} (value : Json → Option α) (name : String)
    (members : List (String × Json)) : Option α :=
  match valuesOf name members with
  | [v] => value v
  | _ => none

/-- The value of a member that may be missing, but must not be there twice. -/
def optional? {α : Type} (value : Json → Option α) (default : α) (name : String)
    (members : List (String × Json)) : Option α :=
  match valuesOf name members with
  | [] => some default
  | [v] => value v
  | _ => none

end Json
end RequestFeed
