import Querent.Config.Basic

/-!
# Options

The options of the command line, from the arguments that give them. An option
has a long form, and some have a short one; a value stands after it or, with an
equals sign or for a short form directly, in the same argument. Short forms
without a value may share an argument. No option may be given twice, and a
value in an argument of its own must not look like an option.
-/

namespace Querent.CommandLine

/-- The form in which rows are printed. -/
inductive Format where
  /-- fields with semicolons between them -/
  | text
  /-- a JSON array for each row -/
  | json
  deriving DecidableEq, Repr, Inhabited

structure Options where
  server : Option String := none
  port : Option UInt16 := none
  database : Option String := none
  /-- the statement to execute, in place of standard input -/
  query : Option String := none
  /-- print the processing time of each statement -/
  timing : Bool := false
  /-- print no feedback -/
  quiet : Bool := false
  user : Option String := none
  password : Option String := none
  library : Option String := none
  format : Option Format := none
  deriving DecidableEq, Repr, Inhabited

/-- Why arguments are not taken, or what they ask for instead. -/
inductive UsageError where
  | unknownArgument
  /-- a value is missing, or is none of those possible -/
  | invalidValue
  /-- a number is no number, or out of range -/
  | valueValidation
  /-- an option is given twice -/
  | argumentConflict
  /-- a value for an option that takes none -/
  | tooManyValues
  | displayHelp
  | displayVersion
  deriving DecidableEq, Repr

def UsageError.name : UsageError → String
  | unknownArgument => "UnknownArgument"
  | invalidValue => "InvalidValue"
  | valueValidation => "ValueValidation"
  | argumentConflict => "ArgumentConflict"
  | tooManyValues => "TooManyValues"
  | displayHelp => "DisplayHelp"
  | displayVersion => "DisplayVersion"

/-- Options that take a value. -/
inductive Setting where
  | server
  | port
  | database
  | query
  | user
  | password
  | library
  | format
  deriving DecidableEq, Repr

/-- Options that take none. -/
inductive Flag where
  | timing
  | quiet
  | help
  | version
  deriving DecidableEq, Repr

abbrev Name := Setting ⊕ Flag

def Name.ofLong? (s : String) : Option Name :=
  match s with
  | "server" => some (.inl .server)
  | "port" => some (.inl .port)
  | "database" => some (.inl .database)
  | "query" => some (.inl .query)
  | "user" => some (.inl .user)
  | "password" => some (.inl .password)
  | "library" => some (.inl .library)
  | "format" => some (.inl .format)
  | "timing" => some (.inr .timing)
  | "quiet" => some (.inr .quiet)
  | "help" => some (.inr .help)
  | "version" => some (.inr .version)
  | _ => none

def Name.ofShort? (c : Char) : Option Name :=
  match c with
  | 's' => some (.inl .server)
  | 'p' => some (.inl .port)
  | 'd' => some (.inl .database)
  | 'Q' => some (.inl .query)
  | 'u' => some (.inl .user)
  | 't' => some (.inr .timing)
  | 'q' => some (.inr .quiet)
  | 'h' => some (.inr .help)
  | 'V' => some (.inr .version)
  | _ => none

/-- A port as an argument: decimal digits, perhaps after a sign. -/
def readPort (s : String) : Except UsageError UInt16 :=
  match Decimal.signed? s.toList with
  | some n => if 0 ≤ n ∧ n < 65536 then .ok (UInt16.ofNat n.toNat) else .error .valueValidation
  | none => .error .valueValidation

def readFormat (s : String) : Except UsageError Format :=
  match s with
  | "text" => .ok .text
  | "json" => .ok .json
  | _ => .error .invalidValue

/-- A path, which must not be empty. -/
def readPath (s : String) : Except UsageError String :=
  if s.isEmpty then .error .invalidValue else .ok s

namespace Options

/-- A value for an option that must not have one yet. -/
def once {α : Type} (old : Option α) (read : Except UsageError α) : Except UsageError (Option α) :=
  if old.isSome then .error .argumentConflict else read.map some

/-- The options with a setting given. -/
def give (o : Options) (s : Setting) (v : String) : Except UsageError Options :=
  match s with
  | .server => return { o with server := ← once o.server (.ok v) }
  | .port => return { o with port := ← once o.port (readPort v) }
  | .database => return { o with database := ← once o.database (.ok v) }
  | .query => return { o with query := ← once o.query (.ok v) }
  | .user => return { o with user := ← once o.user (.ok v) }
  | .password => return { o with password := ← once o.password (.ok v) }
  | .library => return { o with library := ← once o.library (readPath v) }
  | .format => return { o with format := ← once o.format (readFormat v) }

/-- The options with a flag given. -/
def raise (o : Options) (f : Flag) : Except UsageError Options :=
  match f with
  | .timing => if o.timing then .error .argumentConflict else .ok { o with timing := true }
  | .quiet => if o.quiet then .error .argumentConflict else .ok { o with quiet := true }
  | .help => .error .displayHelp
  | .version => .error .displayVersion

end Options

/-- A reading of arguments: what is settled, and a setting at the end whose
value, if it has one yet, has not been looked at. -/
structure Reading where
  settled : Options
  pending : Option (Setting × Option String)
  deriving DecidableEq, Repr

namespace Reading

def start : Reading := ⟨{}, none⟩

/-- Looks at the value of the last setting. -/
def settle (r : Reading) : Except UsageError Options :=
  match r.pending with
  | none => .ok r.settled
  | some (_, none) => .error .invalidValue
  | some (s, some v) => r.settled.give s v

def raise (r : Reading) (f : Flag) : Except UsageError Reading :=
  return ⟨← (← r.settle).raise f, none⟩

/-- A setting with its value in the same argument. -/
def give (r : Reading) (s : Setting) (v : String) : Except UsageError Reading :=
  return ⟨← (← r.settle).give s v, none⟩

/-- A setting whose value is to come. -/
def await (r : Reading) (s : Setting) : Except UsageError Reading :=
  return ⟨← r.settle, some (s, none)⟩

/-- The name and the value of a long argument. -/
def splitLong (l : List Char) : String × Option String :=
  let name := l.takeWhile (· ≠ '=')
  (String.ofList name,
    match l.drop name.length with
    | _ :: v => some (String.ofList v)
    | [] => none)

/-- An argument after its two dashes. -/
def long (r : Reading) (l : List Char) : Except UsageError Reading :=
  let (name, v) := splitLong l
  match Name.ofLong? name, v with
  | none, _ => .error .unknownArgument
  | some (.inl s), some v => r.give s v
  | some (.inl s), none => r.await s
  | some (.inr _), some _ => .error .tooManyValues
  | some (.inr f), none => r.raise f

/-- An argument after its one dash. -/
def short (r : Reading) : List Char → Except UsageError Reading
  | [] => .ok r
  | c :: rest =>
    match Name.ofShort? c with
    | none => .error .unknownArgument
    | some (.inr f) => do
      let r ← r.raise f
      r.short rest
    | some (.inl s) =>
      match rest with
      | [] => r.await s
      | '=' :: v => r.give s (String.ofList v)
      | v => r.give s (String.ofList v)

/-- An argument that is a value. -/
def plain (r : Reading) (v : String) : Except UsageError Reading :=
  match r.pending with
  | some (s, none) => .ok { r with pending := some (s, some v) }
  | _ => .error .unknownArgument

/-- Reads arguments to the end. Two dashes alone may be the last one. -/
def all (r : Reading) : List String → Except UsageError Options
  | [] => r.settle
  | arg :: rest =>
    match arg.toList with
    | ['-', '-'] => if rest.isEmpty then r.settle else .error .unknownArgument
    | '-' :: '-' :: l => do
      let r ← r.long l
      r.all rest
    | '-' :: c :: l => do
      let r ← r.short (c :: l)
      r.all rest
    | _ => do
      let r ← r.plain arg
      r.all rest

end Reading

/-- The options that the arguments give. -/
def Options.ofArguments (args : List String) : Except UsageError Options :=
  Reading.start.all args

namespace Options

/-- The configuration of the environment, with the options over it. -/
def config (o : Options) (env : Environment) : Except Error Config := do
  let c ← Config.ofEnvironment env
  return { c with
    host := o.server.getD c.host
    port := o.port.getD c.port
    library := o.library.getD c.library
    user := o.user.or c.user
    password := o.password.or c.password
    database := o.database.or c.database }

end Options

end Querent.CommandLine
