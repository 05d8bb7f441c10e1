import RewardPool.Validator

/-!
Command lines made of options with one value each, and of commands with options of their own. An
option comes from the command line, else from a variable of the environment, else from its default.
A value is looked at when the next option begins, so an option that is waiting for its value, or
whose value is still to be checked, is carried along. Help is asked for by an option that has no
value, and by a command.
-/
namespace RewardPool.Arguments

/-- How a command line is refused; asking for help is one of the ways. -/
inductive UsageError where
  /-- A value that the option does not take. -/
  | valueValidation
  /-- An option without a value. -/
  | invalidValue
  | tooManyValues
  | unknownArgument
  | missingRequiredArgument
  /-- An option that is given twice. -/
  | argumentConflict
  | invalidSubcommand
  | missingSubcommand
  | displayHelp
  /-- Nothing at all is given where a command is needed. -/
  | displayHelpOnMissing
deriving DecidableEq

def UsageError.name : UsageError → String
  | valueValidation => "ValueValidation"
  | invalidValue => "InvalidValue"
  | tooManyValues => "TooManyValues"
  | unknownArgument => "UnknownArgument"
  | missingRequiredArgument => "MissingRequiredArgument"
  | argumentConflict => "ArgumentConflict"
  | invalidSubcommand => "InvalidSubcommand"
  | missingSubcommand => "MissingSubcommand"
  | displayHelp => "DisplayHelp"
  | displayHelpOnMissing => "DisplayHelpOnMissingArgumentOrSubcommand"

/-- What an option takes for a value. -/
inductive ValueKind where
  | text
  /-- A text that is not empty. -/
  | path
  | word
  | address
  | amount
  | eligibility
deriving DecidableEq

structure Flag where
  name : String
  kind : ValueKind
  /-- The variable of the environment that may have a value for it. -/
  envName : Option String
  fallback : Option String
  required : Bool
deriving DecidableEq

namespace ValueKind

def check (kind : ValueKind) (value : String) : Except UsageError Unit :=
  let valid : Bool → Except UsageError Unit
    | true => .ok ()
    | false => .error .valueValidation
  match kind with
  | text => .ok ()
  | path => if value.isEmpty then .error .invalidValue else .ok ()
  | word => valid (Numeral.signed? value.toList >>= Numeral.word64?).isSome
  | address => valid (FixedBytes.ofText? value.toList : Option Address).isSome
  | amount => valid (Wei.ofText? value.toList).isSome
  | eligibility => valid (Eligibility.ofText? value).isSome

end ValueKind

abbrev Values := List (String × String)

/-- A place where options are read: its options and its commands. -/
structure Level where
  flags : List Flag
  commands : List String

/-- Options read so far, and the last one, whose value may still be missing. -/
structure Progress where
  values : Values
  pending : Option (Flag × Option String)

def helpName : String := "help"

namespace Progress

def start : Progress := ⟨[], none⟩

def isWaiting (p : Progress) : Bool :=
  match p.pending with
  | some (_, none) => true
  | _ => false

/-- Looks at the value of the last option. -/
def settle (p : Progress) : Except UsageError Progress :=
  match p.pending with
  | none => .ok p
  | some (_, none) => .error .invalidValue
  | some (flag, some value) => do
    if (p.values.lookup flag.name).isSome then throw .argumentConflict
    flag.kind.check value
    return ⟨p.values ++ [(flag.name, value)], none⟩

/-- Begins an option, with the value that is written into it, if there is one. -/
def begin (p : Progress) (flag : Flag) (value : Option String) : Except UsageError Progress := do
  let p : Progress := { (← p.settle) with pending := some (flag, value) }
  if value.isSome then p.settle else return p

end Progress

namespace Level

def isCommand (l : Level) (word : String) : Bool :=
  !l.commands.isEmpty && (word = helpName || l.commands.contains word)

def strayWord (l : Level) : UsageError :=
  if l.commands.isEmpty then .unknownArgument else .invalidSubcommand

/-- Splits what follows two dashes at the first equals sign. -/
def splitValue (body : List Char) : String × Option String :=
  let name := String.ofList (body.takeWhile (· ≠ '='))
  match body.dropWhile (· ≠ '=') with
  | [] => (name, none)
  | _ :: value => (name, some (String.ofList value))

def long (l : Level) (p : Progress) (body : List Char) : Except UsageError Progress := do
  let (name, value) := splitValue body
  if name = helpName then
    if value.isSome then throw .tooManyValues
    let _ ← p.settle
    throw .displayHelp
  match l.flags.find? (·.name = name) with
  | none => throw .unknownArgument
  | some flag => p.begin flag value

/-- Reads an option with a short name; help is the only one. -/
def short (p : Progress) (body : List Char) : Except UsageError Progress := do
  if body.head? = some 'h' then
    let _ ← p.settle
    throw .displayHelp
  throw .unknownArgument

def afterMark (l : Level) (word : String) : UsageError :=
  if l.isCommand word then .unknownArgument else l.strayWord

/-- Reads options up to a command, and brings back the command with the words after it. -/
def scan (l : Level) (p : Progress) :
    List String → Except UsageError (Progress × Option (String × List String))
  | [] => .ok (p, none)
  | word :: rest =>
    if !p.isWaiting && l.isCommand word then .ok (p, some (word, rest))
    else
      match word.toList with
      | ['-', '-'] =>
        match rest with
        | [] => .ok (p, none)
        | word :: _ => .error (l.afterMark word)
      | '-' :: '-' :: body => do l.scan (← l.long p body) rest
      | '-' :: c :: body => do l.scan (← short p (c :: body)) rest
      | _ =>
        match p.pending with
        | some (flag, none) => l.scan { p with pending := some (flag, some word) } rest
        | _ => .error l.strayWord

/-- Adds the values that variables of the environment have for options that are not given. -/
def addVariables (l : Level) (environment : Values) (values : Values) : Except UsageError Values :=
  l.flags.foldlM
    (fun values flag =>
      match values.lookup flag.name, flag.envName.bind (List.lookup · environment) with
      | none, some value => do
        flag.kind.check value
        return values ++ [(flag.name, value)]
      | _, _ => return values)
    values

def addDefaults (l : Level) (values : Values) : Values :=
  values ++ l.flags.filterMap fun flag =>
    match values.lookup flag.name with
    | some _ => none
    | none => flag.fallback.map (flag.name, ·)

def isComplete (l : Level) (values : Values) : Bool :=
  l.flags.all fun flag => !flag.required || (values.lookup flag.name).isSome

def conclude (l : Level) (environment : Values) (p : Progress) (commandGiven : Bool) :
    Except UsageError Values := do
  let values ← l.addVariables environment (← p.settle).values
  if !l.commands.isEmpty && !commandGiven then
    throw (if values.isEmpty then .displayHelpOnMissing else .missingSubcommand)
  if !l.isComplete values then throw .missingRequiredArgument
  return l.addDefaults values

def readCommand (l : Level) (environment : Values) (words : List String) :
    Except UsageError Values := do
  let (p, _) ← l.scan .start words
  l.conclude environment p false

def help (l : Level) (words : List String) : UsageError :=
  match words with
  | [] => .displayHelp
  | [word] => if l.isCommand word then .displayHelp else .invalidSubcommand
  | _ => .invalidSubcommand

/-- Reads a whole command line. The options of the command are checked before those that stand in
front of it. -/
def read (l : Level) (command : String → Level) (environment : Values) (words : List String) :
    Except UsageError (Values × String × Values) := do
  let (p, found) ← l.scan .start words
  match found with
  | none =>
    let _ ← l.conclude environment p false
    throw .missingSubcommand
  | some (name, rest) =>
    if name = helpName then throw (l.help rest)
    let inner ← (command name).readCommand environment rest
    let outer ← l.conclude environment p true
    return (outer, name, inner)

end Level

end RewardPool.Arguments
