/-!
# Input and output errors

What can go wrong outside the program: a kind, which decides how the failure is treated, and a
text, which is shown.
-/

namespace RequestFeed

inductive IoErrorKind where
  | notFound
  | permissionDenied
  | connectionRefused
  | connectionReset
  | connectionAborted
  | notConnected
  | addrInUse
  | addrNotAvailable
  | brokenPipe
  | alreadyExists
  | wouldBlock
  | invalidInput
  | invalidData
  | timedOut
  | writeZero
  | interrupted
  | unsupported
  | unexpectedEof
  | outOfMemory
  | isADirectory
  | notADirectory
  | invalidFilename
  | other
  deriving DecidableEq, Repr

/-- The text of an error of which only the kind is known. -/
def IoErrorKind.description : IoErrorKind → String
  | .notFound => "entity not found"
  | .permissionDenied => "permission denied"
  | .connectionRefused => "connection refused"
  | .connectionReset => "connection reset"
  | .connectionAborted => "connection aborted"
  | .notConnected => "not connected"
  | .addrInUse => "address in use"
  | .addrNotAvailable => "address not available"
  | .brokenPipe => "broken pipe"
  | .alreadyExists => "entity already exists"
  | .wouldBlock => "operation would block"
  | .invalidInput => "invalid input parameter"
  | .invalidData => "invalid data"
  | .timedOut => "timed out"
  | .writeZero => "write zero"
  | .interrupted => "operation interrupted"
  | .unsupported => "unsupported"
  | .unexpectedEof => "unexpected end of file"
  | .outOfMemory => "out of memory"
  | .isADirectory => "is a directory"
  | .notADirectory => "not a directory"
  | .invalidFilename => "invalid filename"
  | .other => "other error"

structure IoError where
  kind : IoErrorKind
  /-- How it is told. -/
  text : String
  deriving DecidableEq, Repr

namespace IoError

/-- An error of which only the kind is known. -/
def ofKind (kind : IoErrorKind) : IoError := ⟨kind, kind.description⟩

def noSuchFile : IoError := ⟨.notFound, "No such file or directory (os error 2)"⟩

/-- A directory where a file is needed. -/
def directory : IoError := ⟨.isADirectory, "Is a directory (os error 21)"⟩

/-- A file where a directory is needed. -/
def notDirectory : IoError := ⟨.notADirectory, "Not a directory (os error 20)"⟩

/-- A name or a path that is longer than the system takes. -/
def nameTooLong : IoError := ⟨.invalidFilename, "File name too long (os error 36)"⟩

/-- A path that holds the character that ends paths. -/
def nulInPath : IoError := ⟨.invalidInput, "file name contained an unexpected NUL byte"⟩

end IoError
end RequestFeed
