import RevisionWatch.Daemon.Client
import RevisionWatch.Json.Printer
import RevisionWatch.Watch.Session
/-!
# The log

What the program does on the way is told in events, each with a level, a sentence and fields. How
much is told is a matter of the level asked for. An event is written as a line, where a text that
was given as such stands in quotes, or as JSON, where numbers and truth values keep their kind.
-/

namespace RevisionWatch.Command

/-- How much an event matters. -/
inductive Severity where
  | error
  | warn
  | info
  | debug
  | trace
deriving DecidableEq, Repr, Inhabited

namespace Severity

/-- The place of a level, the gravest first. -/
def rank : Severity → Nat
  | .error => 0
  | .warn => 1
  | .info => 2
  | .debug => 3
  | .trace => 4

/-- The name of a level. -/
def name : Severity → String
  | .error => "ERROR"
  | .warn => "WARN"
  | .info => "INFO"
  | .debug => "DEBUG"
  | .trace => "TRACE"

/-- The level of a name in small letters. -/
def of? (s : String) : Option Severity :=
  match s with
  | "error" => some .error
  | "warn" => some .warn
  | "info" => some .info
  | "debug" => some .debug
  | "trace" => some .trace
  | _ => none

end Severity

/-- What a field holds: a text that is shown as it is, one that is quoted, a number or a truth
    value. -/
inductive Datum where
  | shown (s : String)
  | quoted (s : String)
  | number (n : Nat)
  | boolean (b : Bool)
deriving DecidableEq, Repr, Inhabited

/-- An event of the log. -/
structure Notice where
  severity : Severity
  sentence : String
  fields : List (String × Datum)
deriving DecidableEq, Repr, Inhabited

namespace Datum

/-- A field's content in a line. -/
def text : Datum → String
  | .shown s => s
  | .quoted s => Text.quoted s
  | .number n => Decimal.text n
  | .boolean b => if b then "true" else "false"

/-- A field's content in JSON. -/
def toJson : Datum → Json.Value
  | .shown s => .text s
  | .quoted s => .text s
  | .number n => .natural n
  | .boolean b => .boolean b

end Datum

namespace Notice

/-- The event as a line, behind its moment. -/
def line (moment : String) (n : Notice) : String :=
  let name := n.severity.name
  moment ++ " " ++ String.ofList (List.replicate (5 - name.length) ' ') ++ name ++ " " ++
    n.sentence ++ String.join (n.fields.map fun (key, d) => " " ++ key ++ "=" ++ d.text) ++ "\n"

/-- The event as JSON, without its moment. -/
def toJson (n : Notice) : Json.Value :=
  .object [
    ("level", .text n.severity.name),
    ("fields", .object (("message", .text n.sentence) ::
      n.fields.map fun (key, d) => (key, d.toJson)))]

/-- The event as a line of JSON with its moment. -/
def jsonLine (moment : String) (n : Notice) : String :=
  match n.toJson with
  | .object ms => (Json.Value.object (("timestamp", .text moment) :: ms)).write ++ "\n"
  | v => v.write ++ "\n"

/-- The event is told at a level; nothing is told without one. -/
def isTold (level : Option Severity) (n : Notice) : Bool :=
  level.any fun s => n.severity.rank ≤ s.rank

end Notice

/-! ## 1. Requests to the daemon -/

/-- What is told of one request. -/
def requestNotices (s : Daemon.Socket) (e : Daemon.Endpoint)
    (r : Except Daemon.Error Http.Response) : List Notice :=
  let dialed : List Notice :=
    match s.dial e with
    | .ok _ => [⟨.trace, "dialed daemon socket", [("socket", .shown s.path)]⟩]
    | .error _ => []
  let completed : List Notice :=
    match r with
    | .ok r =>
      [⟨.debug, "daemon request completed",
        [("socket", .shown s.path), ("path", .quoted Daemon.listPath),
          ("status", .number r.status), ("bytes", .number r.body.length)]⟩]
    | .error _ => []
  dialed ++ completed

/-- What is told of looking for one package in a response. -/
def queryNotices (name : String) (r : Except Daemon.Error Http.Response) : List Notice :=
  match r.bind Daemon.entries with
  | .error _ => []
  | .ok es =>
    match Daemon.find? name es with
    | .error _ => []
    | .ok none =>
      [⟨.debug, "package not installed",
        [("package", .shown name), ("listed", .number es.length)]⟩]
    | .ok (some p) =>
      [⟨.debug, "queried package",
        [("package", .shown p.name), ("revision", .shown p.revision.text),
          ("daemon", .boolean p.isDaemon), ("running", .boolean p.isRunning)]⟩]

/-- What is told of the packages that a list leaves out. -/
def listNotices (r : Except Daemon.Error Http.Response) : List Notice :=
  match r.bind Daemon.entries with
  | .error _ => []
  | .ok es =>
    es.filterMap fun e =>
      match e.package with
      | .ok _ => none
      | .error (.manyServices package count) =>
        some ⟨.warn, "skipping package with multiple services",
          [("package", .shown package), ("daemon_apps", .number count)]⟩
      | .error err =>
        some ⟨.warn, "skipping package with unreadable revision",
          [("package", .shown e.name), ("error", .shown err.message)]⟩

/-- What is told of a package that is installed. -/
def installedNotice (p : Package) : Notice :=
  ⟨.info, "package is installed",
    [("package", .shown p.name), ("version", .quoted (p.version.getD "unknown")),
      ("revision", .shown p.revision.text)]⟩

/-! ## 2. Watches -/

/-- What is told of the agent's answer. -/
def triggerNotice (url : String) : Agent.Outcome → Notice
  | .accepted status =>
    ⟨.info, "update trigger accepted", [("url", .shown url), ("status", .number status)]⟩
  | .rejected status =>
    ⟨.warn, "update trigger returned non-success status",
      [("url", .shown url), ("status", .number status)]⟩
  | .unreachable reason =>
    ⟨.warn, "update trigger unreachable", [("url", .shown url), ("reason", .shown reason)]⟩

/-- The name of a phase in the log. -/
def phaseName : Watch.Phase → String
  | .idle => "Idle"
  | .triggerSent => "TriggerSent"
  | .polling => "Polling"
  | .succeeded => "Succeeded"
  | .timedOut => "TimedOut"
  | .failed => "Failed"
  | .cancelled => "Cancelled"

/-- What is told of an event of a watch; `error` writes an error. A cancelled watch was interrupted
    just before. -/
def watchNotices (s : Watch.Settings) (url : String) (error : Watch.Error → String) :
    Watch.Event → List Notice
  | .asked => []
  | .baseline p =>
    [⟨.info, "baseline taken",
      [("package", .shown s.package), ("revision", .shown p.revision.text),
        ("running", .boolean p.isRunning)]⟩]
  | .fired outcome => [triggerNotice url outcome]
  | .moved source target =>
    (if target = .cancelled then [⟨.info, "received ctrl-c, cancelling watch", []⟩] else []) ++
      [⟨.debug, "watch state transition",
        [("from", .shown (phaseName source)), ("to", .shown (phaseName target))]⟩]
  | .observed before after polls =>
    [⟨.info, "update observed and service running",
      [("package", .shown s.package), ("before", .shown before.text),
        ("after", .shown after.text), ("polls", .number polls)]⟩]
  | .pollsUsedUp polls =>
    [⟨.warn, "poll budget exhausted", [("package", .shown s.package), ("polls", .number polls)]⟩]
  | .timeUsedUp polls =>
    [⟨.warn, "watch deadline reached", [("package", .shown s.package), ("polls", .number polls)]⟩]
  | .slept =>
    [⟨.debug, "revision unchanged, sleeping",
      [("package", .shown s.package), ("interval_ms", .number s.intervalMillis)]⟩]
  | .failed e =>
    [⟨.error, "watch failed", [("package", .shown s.package), ("error", .shown (error e))]⟩]

end RevisionWatch.Command
