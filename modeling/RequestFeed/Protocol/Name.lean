import RequestFeed.Bytes
import RequestFeed.Text.Escape
/-!
# Protocol names

The names under which protocols are offered and configured: at most thirty-two bytes of visible
ASCII.
-/

namespace RequestFeed

/-- What is wrong with a protocol name. -/
inductive ProtocolNameError where
  | nameLength (length : Nat)
  | notVisible (name : String)
  deriving DecidableEq, Repr

def ProtocolNameError.message : ProtocolNameError → String
  | .nameLength length => s!"invalid protocol name length: {length}"
  | .notVisible name => s!"protocol name '{Escape.asciiOnly name}' must be printable ASCII"

namespace ProtocolName

def maxLength : Nat := 32

/-- The name of the protocol that is used when nothing better is agreed on. -/
def fallback : String := "http/1.1"

/-- The name of the multiplexed protocol. -/
def standard : String := "mx/1"

def check (name : String) : Except ProtocolNameError Unit :=
  if name.utf8ByteSize = 0 ∨ maxLength < name.utf8ByteSize then
    .error (.nameLength name.utf8ByteSize)
  else if (Bytes.utf8 name).all fun b => 0x21 ≤ b && b ≤ 0x7e then .ok ()
  else .error (.notVisible name)

/-- Checks names; the first faulty one is reported. -/
def checkAll : List String → Except ProtocolNameError Unit
  | [] => .ok ()
  | name :: rest => do
    check name
    checkAll rest

end ProtocolName
end RequestFeed
