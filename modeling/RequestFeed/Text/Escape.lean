import RequestFeed.Text.CharacterClass
import RequestFeed.Text.Hex
/-!
# Escaped text

Three ways to show a text inside a message, so that nothing in it can disturb the line.

* `asciiOnly`: for names, which ought to be ASCII; everything else is shown by its code point.
* `quoted`: for values, between double quotes; characters that print stay as they are.
* `preview`: for payloads; like `quoted`, without the quotes and with both quote characters
  escaped. A character that extends the one before it is escaped only at the start, where
  there is nothing to extend.
-/

namespace RequestFeed
namespace Escape

/-- A code point in braces, in lowercase hexadecimal. -/
def codePoint (c : Char) : List Char :=
  ['\\', 'u', '\x7b'] ++ Hex.digits c.toNat ++ ['\x7d']

/-- The escapes with a letter of their own that all three forms share. -/
def letter? : Char → Option (List Char)
  | '\t' => some ['\\', 't']
  | '\r' => some ['\\', 'r']
  | '\n' => some ['\\', 'n']
  | '\\' => some ['\\', '\\']
  | '"' => some ['\\', '"']
  | _ => none

/-- Escapes everything but printable ASCII. -/
def asciiOnly (s : String) : String :=
  String.ofList (s.toList.flatMap fun c =>
    match letter? c with
    | some e => e
    | none =>
      if c = '\'' then ['\\', '\'']
      else if 0x20 ≤ c.toNat && c.toNat ≤ 0x7e then [c]
      else codePoint c)

/-- One character of a value; `escapeExtending` says whether extending characters are escaped. -/
def visible (escapeExtending : Bool) (c : Char) : List Char :=
  match letter? c with
  | some e => e
  | none =>
    if c.toNat = 0 then ['\\', '0']
    else if escapeExtending && isExtending c then codePoint c
    else if isPrintable c then [c]
    else codePoint c

def quoted (s : String) : String :=
  String.ofList ('"' :: s.toList.flatMap (visible true) ++ ['"'])

/-- One character of a payload. -/
def previewChar (first : Bool) (c : Char) : List Char :=
  if c = '\'' then ['\\', '\''] else visible first c

/-- The text without quotes, to be read beside other text. -/
def preview (s : String) : String :=
  match s.toList with
  | [] => ""
  | c :: cs => String.ofList (previewChar true c ++ cs.flatMap (previewChar false))

end Escape
end RequestFeed
