import RequestFeed.Text.Hex
/-!
# Quoted JSON text

A text as a JSON string. Controls are escaped, with a letter where there is one; all other
characters but the quote and the backslash stay as they are.
-/

namespace RequestFeed
namespace JsonQuote

/-- One character of a quoted text. -/
def character (c : Char) : List Char :=
  match c with
  | '"' => ['\\', '"']
  | '\\' => ['\\', '\\']
  | '\x08' => ['\\', 'b']
  | '\t' => ['\\', 't']
  | '\n' => ['\\', 'n']
  | '\x0c' => ['\\', 'f']
  | '\r' => ['\\', 'r']
  | c =>
    if c.toNat < 0x20 then
      ['\\', 'u', '0', '0', Hex.digit (c.toNat / 16), Hex.digit (c.toNat % 16)]
    else [c]

def quote (s : String) : String := String.ofList ('"' :: s.toList.flatMap character ++ ['"'])

/-- A JSON object; the values are JSON texts. -/
def object (members : List (String × String)) : String :=
  "\x7b" ++ ",".intercalate (members.map fun m => quote m.1 ++ ":" ++ m.2) ++ "\x7d"

/-- A JSON array; the items are JSON texts. -/
def array (items : List String) : String := "[" ++ ",".intercalate items ++ "]"

end JsonQuote
end RequestFeed
