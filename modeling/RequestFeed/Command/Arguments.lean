import RequestFeed.Command.Report
/-!
# Command lines

The grammar of command lines, and what an argument list means in it.

*Grammar.* A command line is read level by level: the program first, then one of its commands.
Each level has options and positional arguments. An option that takes a value has it attached
(`--name=value`, `-nvalue`) or in the next argument. After `--` all arguments are positional.

*Order of errors.* The value of an argument is checked when the next argument begins, not when it
is read; so an argument that is not known is told before a bad value in front of it, and so are
the errors of a command before those of the program.
-/

namespace RequestFeed

/-- Why a command line is not run. -/
inductive UsageError where
  | missingRequiredArgument
  | displayHelpOnMissingArgumentOrSubcommand
  | missingSubcommand
  | invalidSubcommand
  | unknownArgument
  | valueValidation
  | invalidValue
  | tooManyValues
  | argumentConflict
  | displayHelp
  | displayVersion
  deriving DecidableEq, Repr

namespace UsageError

def name : UsageError → String
  | .missingRequiredArgument => "MissingRequiredArgument"
  | .displayHelpOnMissingArgumentOrSubcommand => "DisplayHelpOnMissingArgumentOrSubcommand"
  | .missingSubcommand => "MissingSubcommand"
  | .invalidSubcommand => "InvalidSubcommand"
  | .unknownArgument => "UnknownArgument"
  | .valueValidation => "ValueValidation"
  | .invalidValue => "InvalidValue"
  | .tooManyValues => "TooManyValues"
  | .argumentConflict => "ArgumentConflict"
  | .displayHelp => "DisplayHelp"
  | .displayVersion => "DisplayVersion"

/-- Whoever asked for help or the version gets what they wanted. -/
def isRequest : UsageError → Bool
  | .displayHelp | .displayVersion => true
  | _ => false

end UsageError

/-- What an argument takes. -/
inductive ArgumentValue where
  /-- Nothing: the argument is a flag. -/
  | flag
  | path
  | size
  | choice (words : List String)
  deriving DecidableEq, Repr

/-- An option or a positional argument. -/
structure ArgumentSpec where
  name : String
  value : ArgumentValue
  /-- The letter by which an option may be called too. -/
  letter : Option Char := none
  required : Bool := false
  deriving DecidableEq, Repr

/-- What can be said at one level of a command line. -/
structure CommandSpec where
  options : List ArgumentSpec
  positionals : List ArgumentSpec := []
  commands : List String := []
  hasVersion : Bool := false
  deriving DecidableEq, Repr

namespace ArgumentValue

/--
The number that a text denotes: digits, perhaps after a plus sign, of eight bytes at most. What is
greater is not told apart.
-/
def size? (s : String) : Option Nat :=
  let digits : List Char := match s.toList with
    | '+' :: rest => rest
    | cs => cs
  let n :=
    digits.foldl (fun n c => if n < UInt64.size then n * 10 + (c.toNat - 48) else n) 0
  if digits ≠ [] ∧ digits.all Char.isDigit ∧ n < UInt64.size then some n else none

def check (v : ArgumentValue) (s : String) : Except UsageError Unit :=
  match v with
  | .flag => .ok ()
  | .path => if s = "" then .error .invalidValue else .ok ()
  | .size => if (size? s).isSome then .ok () else .error .valueValidation
  | .choice words => if words.contains s then .ok () else .error .invalidValue

end ArgumentValue

/-- A level of a command line that has been read in part. -/
structure ArgumentScan where
  spec : CommandSpec
  /-- The arguments given so far and checked. -/
  given : List (String × String) := []
  /-- The argument whose value is not yet checked, or has not yet come. -/
  pending : Option (ArgumentSpec × Option String) := none
  /-- The positional arguments that have not been given. -/
  open_ : List ArgumentSpec := spec.positionals
  trailing : Bool := false

namespace ArgumentScan

/-- Records an argument; no option may be given twice. -/
def record (a : ArgumentSpec) (value : String) (s : ArgumentScan) :
    Except UsageError ArgumentScan := do
  if (s.given.lookup a.name).isSome then
    throw .argumentConflict
  a.value.check value
  return { s with given := s.given ++ [(a.name, value)] }

/-- Checks and records the argument that is pending. -/
def resolve (s : ArgumentScan) : Except UsageError ArgumentScan :=
  match s.pending with
  | none => .ok s
  | some (_, none) => .error .invalidValue
  | some (a, some value) => record a value { s with pending := none }

def isWaiting (s : ArgumentScan) : Bool :=
  match s.pending with
  | some (_, none) => true
  | _ => false

/-- Takes an option with the value attached to it, if there is one. -/
def takeOption (a : ArgumentSpec) (attached : Option String) (s : ArgumentScan) :
    Except UsageError ArgumentScan := do
  let s ← s.resolve
  match attached with
  | some value => s.record a value
  | none => return { s with pending := some (a, none) }

def ask (request : UsageError) (s : ArgumentScan) : Except UsageError ArgumentScan := do
  let _ ← s.resolve
  throw request

/-- A name and the value attached to it by an equals sign. -/
def splitName (s : String) : String × Option String :=
  let cs := s.toList
  match cs.dropWhile (· ≠ '=') with
  | [] => (s, none)
  | _ :: value => (String.ofList (cs.takeWhile (· ≠ '=')), some (String.ofList value))

/-- Takes an argument that starts with two dashes, without them. -/
def takeLong (body : String) (s : ArgumentScan) : Except UsageError ArgumentScan :=
  let (name, attached) := splitName body
  if name = "help" ∨ (name = "version" ∧ s.spec.hasVersion) then
    if attached.isSome then .error .tooManyValues
    else s.ask (if name = "help" then .displayHelp else .displayVersion)
  else
    match s.spec.options.find? fun a => a.name = name with
    | none => .error .unknownArgument
    | some a =>
      if a.value = .flag then
        if attached.isSome then .error .tooManyValues else s.takeOption a (some "")
      else s.takeOption a attached

/-- Takes the letters of an argument that starts with one dash. -/
def takeLetters : List Char → ArgumentScan → Except UsageError ArgumentScan
  | [], s => .ok s
  | c :: rest, s =>
    if c = 'h' then s.ask .displayHelp
    else if c = 'V' ∧ s.spec.hasVersion then s.ask .displayVersion
    else
      match s.spec.options.find? fun a => a.letter = some c with
      | none => .error .unknownArgument
      | some a =>
        if a.value = .flag then do
          let s ← s.takeOption a (some "")
          takeLetters rest s
        else
          match rest with
          | [] => s.takeOption a none
          | '=' :: value => s.takeOption a (some (String.ofList value))
          | value => s.takeOption a (some (String.ofList value))

def takePositional (arg : String) (s : ArgumentScan) : Except UsageError ArgumentScan :=
  match s.open_ with
  | a :: rest => do
    let s ← s.resolve
    return { s with pending := some (a, some arg), open_ := rest }
  | [] =>
    if s.trailing ∧ s.spec.commands.contains arg then .error .unknownArgument
    else if s.spec.commands ≠ [] then .error .invalidSubcommand
    else .error .unknownArgument

/-- Takes one argument that names no command. -/
def take (arg : String) (s : ArgumentScan) : Except UsageError ArgumentScan :=
  if s.trailing then s.takePositional arg
  else
    match arg.toList with
    | ['-', '-'] => .ok { s with trailing := true }
    | '-' :: '-' :: body => s.takeLong (String.ofList body)
    | '-' :: c :: letters => s.takeLetters (c :: letters)
    | _ =>
      match s.pending with
      | some (a, none) => .ok { s with pending := some (a, some arg) }
      | _ => s.takePositional arg

def isCommand (arg : String) (s : ArgumentScan) : Bool :=
  !s.trailing && !s.isWaiting && s.spec.commands.contains arg

/-- The level is complete: nothing that is required is missing. -/
def finish (s : ArgumentScan) : Except UsageError (List (String × String)) := do
  let s ← s.resolve
  let required := (s.spec.options ++ s.spec.positionals).filter ArgumentSpec.required
  if required.all fun a => (s.given.lookup a.name).isSome then
    return s.given
  throw .missingRequiredArgument

/-- Reads a level that has no commands below it. -/
def readAll : List String → ArgumentScan → Except UsageError (List (String × String))
  | [], s => s.finish
  | arg :: rest, s => do
    let s ← s.take arg
    readAll rest s

/-- Reads a level up to a command, if there is one: the command and the arguments after it. -/
def readToCommand : List String → ArgumentScan →
    Except UsageError (ArgumentScan × Option (String × List String))
  | [], s => .ok (s, none)
  | arg :: rest, s =>
    if s.isCommand arg then .ok (s, some (arg, rest))
    else do
      let s ← s.take arg
      readToCommand rest s

end ArgumentScan
end RequestFeed
