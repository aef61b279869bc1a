import RequestFeed.Filter.Config
import RequestFeed.Read.Status
import RequestFeed.Violation
/-!
# Exit codes

How failures are told to whoever ran a command: a code, and a line that starts with what the
command was about.
-/

namespace RequestFeed

structure CommandFailure where
  code : Nat
  message : String
  deriving DecidableEq, Repr

namespace CommandFailure

def success : Nat := 0

/-- The connection ended early. -/
def failure : Nat := 1

/-- The command line is not understood. -/
def misuse : Nat := 2

def permissionDenied : Nat := 50

/-- The data make no sense. -/
def dataInvalid : Nat := 60

/-- The settings make no sense. -/
def usage : Nat := 64

def notFound : Nat := 66

def internal : Nat := 125

/-- The program came to a stop. -/
def crashed : Nat := 101

/-- A failure that says what it was about. -/
def about (context : String) (code : Nat) (message : String) : CommandFailure :=
  ⟨code, s!"{context}: {message}"⟩

def ofIo (context : String) (e : IoError) : CommandFailure :=
  about context
    (match e.kind with
      | .permissionDenied => permissionDenied
      | .notFound => notFound
      | _ => internal)
    e.text

def ofFrame (context : String) : FrameError → CommandFailure
  | .io cause => ofIo context cause
  | .connectionClosed => about context failure FrameError.connectionClosed.message
  | e => about context dataInvalid e.message

def ofFilter (context : String) : FilterError → CommandFailure
  | .io cause => ofIo context cause
  | .frame cause => ofFrame context cause
  | e => about context usage e.message

/-- The failure that the end of a feed makes; the end of the input is none. -/
def ofRead? (context : String) : ReadError → Option CommandFailure
  | .eof => none
  | .general => some (about context dataInvalid "input aborted on a framing or stream error")
  | .connAborted => some (about context failure ReadError.connAborted.message)
  | .wouldBlock => some (about context internal ReadError.wouldBlock.message)

def ofViolation (v : Violation) : CommandFailure := ⟨crashed, v.message⟩

/-- The report of a failure; a program that came to a stop makes none. -/
def report? (f : CommandFailure) : Option String :=
  if f.code = crashed then none else some f.message

end CommandFailure

/-- What a command prints, leaves behind and fails with. -/
structure CommandResult where
  output : Bytes := []
  failure : Option CommandFailure := none
  /-- The file that was written, with its contents. -/
  written : Option (String × Bytes) := none
  deriving DecidableEq, Repr

namespace CommandResult

/-- A command that failed before it did anything. -/
def failed (f : CommandFailure) : CommandResult := { failure := some f }

end CommandResult
end RequestFeed
