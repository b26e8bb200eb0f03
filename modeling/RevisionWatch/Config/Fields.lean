import RevisionWatch.Config
import RevisionWatch.Json.Document
import RevisionWatch.Mismatch
import RevisionWatch.Yaml.Printer
/-!
# Configurations as documents

A configuration has seven fields, each optional and each at most once, and no others. What the
fields are is said here once for both formats; a `Source` says how a text, a number and a missing
value are told from a value of the format. Faults inside a field may name it.
-/

namespace RevisionWatch.Config

/-- Why a document is no configuration, and under which field, if the format says so. -/
structure Fault where
  field : Option String
  mismatch : Mismatch
deriving DecidableEq, Repr, Inhabited

/-- The sentence for a fault. -/
def Fault.message (w : Wording) (f : Fault) : String :=
  match f.field with
  | none => f.mismatch.message w
  | some name => name ++ ": " ++ f.mismatch.message w

/-- The name of the whole. -/
def title : String := "struct WatchConfig"

/-- The fields, in order. -/
def fieldNames : List String :=
  ["socket_path", "package", "trigger_url", "poll_interval_secs", "timeout_secs", "max_polls",
    "io_timeout_secs"]

/-- How values of a format are told apart. -/
structure Source (ν : Type) where
  text : String → ν → Except Mismatch String
  natural : Nat → String → ν → Except Mismatch Nat
  isAbsent : ν → Except Mismatch Bool

variable {ν : Type}

/-- A number of a 64-bit word. -/
def Source.word (s : Source ν) : ν → Except Mismatch Nat :=
  s.natural Decimal.word64 "u64"

/-- A number of a 32-bit word, or none. -/
def Source.bound (s : Source ν) (v : ν) : Except Mismatch (Option Nat) := do
  if ← s.isAbsent v then .ok none
  else some <$> s.natural Decimal.word32 "u32" v

/-- The configuration with one field set. -/
def set (s : Source ν) (c : Config) (name : String) (v : ν) : Except Mismatch Config :=
  match name with
  | "socket_path" => (fun x => { c with socketPath := x }) <$> s.text "path string" v
  | "package" => (fun x => { c with package := x }) <$> s.text "a string" v
  | "trigger_url" => (fun x => { c with triggerUrl := x }) <$> s.text "a string" v
  | "poll_interval_secs" => (fun x => { c with pollIntervalSecs := x }) <$> s.word v
  | "timeout_secs" => (fun x => { c with timeoutSecs := x }) <$> s.word v
  | "max_polls" => (fun x => { c with maxPolls := x }) <$> s.bound v
  | "io_timeout_secs" => (fun x => { c with ioTimeoutSecs := x }) <$> s.word v
  | name => .error (.unknownField name fieldNames)

/-- Sets the fields of a configuration that a list of members gives. A member names its faults as
    its second part says; `given` holds the fields before. -/
def setAll (s : Source ν) :
    List String → Config → List (Except Mismatch String × Option String × ν) → Except Fault Config
  | _, c, [] => .ok c
  | given, c, (key, place, v) :: rest =>
    match key with
    | .error m => .error ⟨none, m⟩
    | .ok name =>
      if !fieldNames.contains name then .error ⟨none, .unknownField name fieldNames⟩
      else if given.contains name then .error ⟨none, .repeatedField name⟩
      else
        match set s c name v with
        | .error m => .error ⟨place, m⟩
        | .ok c => setAll s (name :: given) c rest

/-- Sets the fields of a configuration in their order from a list of values. -/
def setInOrder (s : Source ν) : Config → List String → List ν → Except Mismatch Config
  | c, name :: names, v :: vs => do
    let c ← set s c name v
    setInOrder s c names vs
  | c, _, _ => .ok c

/-! ## 1. JSON -/

/-- Values of JSON: null is no value. -/
def jsonSource : Source Json.Value where
  text wanted
    | .text t => .ok t
    | v => .error (.wrongType v.found wanted)
  natural limit wanted v := v.naturalBelow limit wanted
  isAbsent
    | .null => .ok true
    | _ => .ok false

/-- The configuration that a JSON value is: an object, or a list of fields in order. -/
def ofJson (v : Json.Value) : Except Mismatch Config :=
  match v with
  | .object ms =>
    (setAll jsonSource [] {} (ms.map fun (k, v) => (.ok k, none, v))).mapError (·.mismatch)
  | .list vs => do
    let c ← setInOrder jsonSource {} fieldNames vs
    if fieldNames.length < vs.length then
      .error (.wrongLength vs.length "fewer elements in array")
    else .ok c
  | v => .error (.wrongType v.found title)

/-- The configuration as a JSON value. -/
def toJson (c : Config) : Json.Value :=
  .object [
    ("socket_path", .text c.socketPath), ("package", .text c.package),
    ("trigger_url", .text c.triggerUrl), ("poll_interval_secs", .natural c.pollIntervalSecs),
    ("timeout_secs", .natural c.timeoutSecs),
    ("max_polls", match c.maxPolls with
      | some n => .natural n
      | none => .null),
    ("io_timeout_secs", .natural c.ioTimeoutSecs)]

/-! ## 2. YAML -/

/-- Nodes of a YAML document. -/
def yamlSource (d : Yaml.Document) : Source Yaml.Node where
  text wanted n := (n.meant d).text wanted
  natural limit wanted n := (n.meant d).natural limit wanted
  isAbsent n := (n.meant d).isAbsent

/-- What faults of a value are named after: the text of its key, or that its key was a
    reference. A key that is a collection names nothing, since it is a fault itself. -/
def placeOf : Yaml.Node → Option String
  | .scalar _ _ s => some s
  | _ => some "?"

/-- The configuration that a YAML document is: a mapping, or nothing at all. -/
def ofYaml (d : Yaml.Document) : Except Fault Config :=
  match d.root with
  | none => .ok {}
  | some (.scalar .plain _ "") => .ok {}
  | some (.mapping pairs) =>
    setAll (yamlSource d) [] {}
      (pairs.map fun (k, v) => ((k.meant d).text "field identifier", placeOf k, v))
  | some n => .error ⟨none, (n.meant d).mismatch title⟩

/-- The text of a configuration, every field with its value. -/
def toYaml (c : Config) : String :=
  Yaml.writeMapping [
    ("socket_path", .text c.socketPath), ("package", .text c.package),
    ("trigger_url", .text c.triggerUrl), ("poll_interval_secs", .number c.pollIntervalSecs),
    ("timeout_secs", .number c.timeoutSecs),
    ("max_polls", match c.maxPolls with
      | some n => .number n
      | none => .nothing),
    ("io_timeout_secs", .number c.ioTimeoutSecs)]

end RevisionWatch.Config
