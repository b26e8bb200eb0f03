import RevisionWatch.Decimal.Digits
/-!
# The command line

The program has four commands, each with its options; three options belong to the program and may
stand in front of the command or behind it, where the one behind counts. An option takes its value
from behind an equals sign or from the next argument, unless that looks like an option; its value
is looked at when the next option is met or the arguments end. The first thing that does not fit
is the fault.
-/

namespace RevisionWatch.Command

/-! ## 1. Options -/

/-- What the value of an option may be; a switch has none. -/
inductive ValueKind where
  | none
  | text
  | path
  | word
  | halfWord
deriving DecidableEq, Repr

/-- An option. One that is shown ends the reading as soon as it is met. -/
structure Opt where
  name : String
  kind : ValueKind
deriving DecidableEq, Repr

/-- The option as it is shown: its name, and in capitals what its value is. -/
def Opt.display (o : Opt) : String :=
  match o.kind with
  | .none => "--" ++ o.name
  | _ =>
    let capital (c : Char) : Char := if c == '-' then '_' else c.toUpper
    "--" ++ o.name ++ " <" ++ o.name.map capital ++ ">"

/-- Why the arguments are not understood. Help and the version are asked for, not faults, but they
    end the reading as one. -/
inductive Fault where
  | nothingGiven
  | help
  | version
  | unexpected (argument : String)
  | unknownCommand (name : String)
  | noCommand
  | noValue (o : Opt)
  | badValue (value : String) (o : Opt) (reason : String)
  | repeated (o : Opt)
  | needlessValue (value : String) (o : Opt)
deriving DecidableEq, Repr

/-- What the program is for. -/
def purpose : String :=
  "Verify that a snap-packaged agent receives and activates updates"

/-- The first line of what is said about a fault. -/
def Fault.message : Fault → String
  | .nothingGiven => purpose
  | .help => purpose
  | .version => "snapwatch 0.1.0"
  | .unexpected argument => "error: unexpected argument '" ++ argument ++ "' found"
  | .unknownCommand name => "error: unrecognized subcommand '" ++ name ++ "'"
  | .noCommand => "error: 'snapwatch' requires a subcommand but one was not provided"
  | .noValue o =>
    "error: a value is required for '" ++ o.display ++ "' but none was supplied"
  | .badValue value o reason =>
    "error: invalid value '" ++ value ++ "' for '" ++ o.display ++ "': " ++ reason
  | .repeated o => "error: the argument '" ++ o.display ++ "' cannot be used multiple times"
  | .needlessValue value o =>
    "error: unexpected value '" ++ value ++ "' for '" ++ o.display ++
      "' found; no more were expected"

/-! ## 2. Values -/

/-- The digits of a number below a limit, behind a front of value `acc`; the reason of the first
    character that is none or makes it too large. -/
def digitsWithin (limit : Nat) (tooLarge : String) : Nat → List Char → Except String Nat
  | acc, [] => .ok acc
  | acc, c :: cs =>
    match Decimal.digitIn? 10 c with
    | none => .error "invalid digit found in string"
    | some d =>
      if acc * 10 + d < limit then digitsWithin limit tooLarge (acc * 10 + d) cs
      else .error tooLarge

/-- One digit or more. -/
def number (limit : Nat) (tooLarge : String) (cs : List Char) : Except String Nat :=
  match cs with
  | [] => .error "invalid digit found in string"
  | cs => digitsWithin limit tooLarge 0 cs

/-- A number without a sign of less, below a limit. -/
def unsignedNumber (limit : Nat) (s : String) : Except String Nat :=
  let tooLarge := "number too large to fit in target type"
  match s.toList with
  | [] => .error "cannot parse integer from empty string"
  | '+' :: cs => number limit tooLarge cs
  | cs => number limit tooLarge cs

/-- A number with or without a sign, in a signed 64-bit word. -/
def signedNumber (s : String) : Except String Int :=
  match s.toList with
  | '-' :: cs => do
    let n ← number (Nat.pow 2 63 + 1) "number too small to fit in target type" cs
    .ok (-(n : Int))
  | _ => do
    let n ← unsignedNumber (Nat.pow 2 63) s
    .ok n

/-- A number of a 32-bit word, looked for among the signed numbers. -/
def halfWord (s : String) : Except String Nat := do
  let i ← signedNumber s
  if 0 ≤ i ∧ i < Decimal.word32 then .ok i.toNat
  else .error (toString i ++ " is not in 0..=4294967295")

/-- The fault of an option's value, if it has one. -/
def checkValue (o : Opt) (value : String) : Except Fault Unit :=
  let refuse (r : Except String Nat) : Except Fault Unit :=
    match r with
    | .ok _ => .ok ()
    | .error reason => .error (.badValue value o reason)
  match o.kind with
  | .none => .ok ()
  | .text => .ok ()
  | .path => if value.isEmpty then .error (.noValue o) else .ok ()
  | .word => refuse (unsignedNumber Decimal.word64 value)
  | .halfWord => refuse (halfWord value)

/-! ## 3. Reading one level -/

/-- The arguments that one level takes: options, and whether one argument without a name. -/
structure Level where
  options : List Opt
  takesOperand : Bool
  shows : List String
deriving Repr

/-- What has been read at a level: options with their values, the option that waits for its value
    or to be looked at, the operand, and whether only operands may follow. -/
structure Reading where
  given : List (String × String) := []
  pending : Option (Opt × Option String) := none
  operand : Option String := none
  operandsOnly : Bool := false
deriving Repr, Inhabited

namespace Reading

/-- Keeps an option's value, unless it has been given before. -/
def keep (r : Reading) (o : Opt) (value : String) : Except Fault Reading :=
  if (r.given.lookup o.name).isSome then .error (.repeated o)
  else do
    checkValue o value
    .ok { r with given := r.given ++ [(o.name, value)] }

/-- Looks at the option that waits. -/
def settle (r : Reading) : Except Fault Reading :=
  match r.pending with
  | none => .ok r
  | some (o, none) => .error (.noValue o)
  | some (o, some value) => { r with pending := none }.keep o value

/-- Takes an option that is written out, with the value behind its equals sign. -/
def long (l : Level) (r : Reading) (name : String) (value : Option String) :
    Except Fault Reading :=
  if l.shows.contains name then
    match value with
    | some v => .error (.needlessValue v ⟨name, .none⟩)
    | none => do
      let _ ← r.settle
      .error (if name == "version" then .version else .help)
  else
    match l.options.find? (·.name == name) with
    | none => .error (.unexpected ("--" ++ name))
    | some o =>
      match o.kind, value with
      | .none, some v => .error (.needlessValue v o)
      | .none, none => do
        let r ← r.settle
        r.keep o "true"
      | _, some v => do
        let r ← r.settle
        r.keep o v
      | _, none => do
        let r ← r.settle
        .ok { r with pending := some (o, none) }

/-- Takes options of one letter: only those that show something are known. -/
def short (l : Level) (r : Reading) (letter : Char) : Except Fault Reading :=
  if letter == 'h' && l.shows.contains "help" then do
    let _ ← r.settle
    .error .help
  else if letter == 'V' && l.shows.contains "version" then do
    let _ ← r.settle
    .error .version
  else .error (.unexpected ("-" ++ letter.toString))

/-- Takes an argument that is no option. -/
def plain (l : Level) (r : Reading) (argument : String) : Except Fault Reading :=
  match r.pending, r.operandsOnly with
  | some (o, none), false => .ok { r with pending := some (o, some argument) }
  | _, _ =>
    if l.takesOperand && r.operand.isNone then do
      let r ← r.settle
      .ok { r with operand := some argument }
    else .error (.unexpected argument)

/-- The name of an option that is written out, and the value behind its equals sign. -/
def splitLong (cs : List Char) : String × Option String :=
  let name := cs.takeWhile (· != '=')
  (String.ofList name, ((cs.drop name.length).tail?).map String.ofList)

/-- Takes one argument. -/
def argument (l : Level) (r : Reading) (argument : String) : Except Fault Reading :=
  if r.operandsOnly then r.plain l argument
  else
    match argument.toList with
    | ['-', '-'] => .ok { r with operandsOnly := true }
    | '-' :: '-' :: cs =>
      let (name, value) := splitLong cs
      r.long l name value
    | '-' :: c :: _ => r.short l c
    | _ => r.plain l argument

/-- Takes the arguments of a level to their end. -/
def arguments (l : Level) : Reading → List String → Except Fault Reading
  | r, [] => r.settle
  | r, a :: as => do
    let r ← r.argument l a
    arguments l r as

end Reading

/-! ## 4. The commands -/

/-- The options that belong to the program. -/
def globalOptions : List Opt :=
  [⟨"config", .path⟩, ⟨"socket", .path⟩, ⟨"log-json", .none⟩]

/-- The level in front of the command. -/
def rootLevel : Level := ⟨globalOptions, false, ["help", "version"]⟩

/-- The commands. -/
inductive Name where
  | list
  | info
  | installed
  | watch
deriving DecidableEq, Repr

/-- The command of a name. -/
def Name.of? (s : String) : Option Name :=
  match s with
  | "list" => some .list
  | "info" => some .info
  | "installed" => some .installed
  | "watch" => some .watch
  | _ => none

/-- The level behind a command. -/
def Name.level : Name → Level
  | .list => ⟨⟨"json", .none⟩ :: globalOptions, false, ["help"]⟩
  | .info => ⟨⟨"json", .none⟩ :: globalOptions, true, ["help"]⟩
  | .installed => ⟨globalOptions, true, ["help"]⟩
  | .watch =>
    ⟨[⟨"package", .text⟩, ⟨"trigger-url", .text⟩, ⟨"interval", .word⟩, ⟨"timeout", .word⟩,
      ⟨"max-polls", .halfWord⟩, ⟨"iterations", .halfWord⟩, ⟨"json", .none⟩] ++ globalOptions,
      false, ["help"]⟩

/-- What the program is asked to do. -/
structure Invocation where
  name : Name
  config : Option String
  socket : Option String
  logJson : Bool
  json : Bool
  package : Option String
  triggerUrl : Option String
  interval : Option Nat
  timeout : Option Nat
  maxPolls : Option Nat
  iterations : Nat
deriving DecidableEq, Repr

/-- The invocation that two levels give. -/
def Invocation.of (name : Name) (root level : Reading) : Invocation :=
  let both (key : String) := (level.given.lookup key).or (root.given.lookup key)
  let number (read : String → Except String Nat) (key : String) :=
    (level.given.lookup key).bind fun v => (read v).toOption
  { name
    config := both "config"
    socket := both "socket"
    logJson := (both "log-json").isSome
    json := (level.given.lookup "json").isSome
    package := level.operand.or (level.given.lookup "package")
    triggerUrl := level.given.lookup "trigger-url"
    interval := number (unsignedNumber Decimal.word64) "interval"
    timeout := number (unsignedNumber Decimal.word64) "timeout"
    maxPolls := number halfWord "max-polls"
    iterations := (number halfWord "iterations").getD 1 }

/-- What the command for help shows: help for the program, or for the one command that is named
    behind it. That may be this command, but none of them has commands of its own. -/
def helpFor : List String → Fault
  | [] => .help
  | a :: as =>
    if (Name.of? a).isNone && a != "help" then .unknownCommand a
    else
      match as with
      | [] => .help
      | b :: _ => .unknownCommand b

/-- Reads the arguments in front of the command, then those behind it. -/
def readFrom (root : Reading) : List String → Except Fault Invocation
  | [] => do
    let root ← root.settle
    .error (if root.given.isEmpty then .nothingGiven else .noCommand)
  | a :: as =>
    let isValue := root.pending.any (·.2.isNone)
    if root.operandsOnly then
      .error (if (Name.of? a).isSome then .unexpected a else .unknownCommand a)
    else if a.startsWith "-" && a.length > 1 || isValue then do
      let root ← root.argument rootLevel a
      readFrom root as
    else
      match Name.of? a with
      | none => .error (if a == "help" then helpFor as else .unknownCommand a)
      | some name => do
        let level ← Reading.arguments name.level {} as
        let root ← root.settle
        .ok (Invocation.of name root level)

/-- What the arguments ask for. -/
def read (arguments : List String) : Except Fault Invocation :=
  readFrom {} arguments

end RevisionWatch.Command
