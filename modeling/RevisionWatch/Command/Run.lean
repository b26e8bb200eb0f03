import RevisionWatch.Agent.Call
import RevisionWatch.Command.Arguments
import RevisionWatch.Command.Display
import RevisionWatch.Command.Log
import RevisionWatch.Config.Load
/-!
# Running a command

A command reads its configuration, asks the daemon, and shows what it learned; a watch is repeated
as often as it is asked to, until one does not succeed. What the program finds around it is given
as a `World`, and what it does is returned as an `Effect`.
-/

namespace RevisionWatch.Command

/-! ## 1. The world -/

/-- What the user does to stop a watch: for each iteration, given how many replies of the daemon
    came before it, what is sent while it runs. Between two iterations nobody listens, so what is
    sent then is lost, and there is nothing to say about it. -/
abbrev Interrupts := Nat → Nat → Watch.Signals

namespace Interrupts

/-- The user lets every watch run. -/
def never : Interrupts := fun _ _ => .silent

/-- The user interrupts in the first sleep that begins after so many replies of the daemon. -/
def afterReplies (count : Nat) : Interrupts := fun _ before =>
  { inSleep := fun n => if n = max 1 (count - before - 1) then [.value] else [] }

end Interrupts

/-- How many values the channel holds on which the user stops a watch. -/
def interruptCapacity : Nat := 4

/-- What the program finds around it. -/
structure World where
  places : Config.Places
  home : Option String
  configHome : Option String
  daemon : List Http.Reply
  agent : Agent.Listener
  logLevel : Option Severity
  colors : Bool
  interrupts : Interrupts
  timing : Timing

/-- What a command does: its exit code, what it writes, what it tells on the way, the complaint at
    the end, and how often it asked. -/
structure Effect where
  exit : Nat := 0
  output : String := ""
  notices : List Notice := []
  complaint : Option String := none
  daemonRequests : Nat := 0
  agentRequests : List String := []
deriving Repr, Inhabited

namespace Effect

/-- Tells something. -/
def tell (e : Effect) (ns : List Notice) : Effect :=
  { e with notices := e.notices ++ ns }

/-- Writes something. -/
def write (e : Effect) (s : String) : Effect :=
  { e with output := e.output ++ s }

/-- Ends with a complaint. -/
def fail (e : Effect) (message : String) (causes : List String) : Effect :=
  { e with exit := 1, complaint := some (Complaint.text ⟨message, causes⟩) }

end Effect

/-! ## 2. Configurations -/

/-- The configuration of the file that is read, or the defaults, with what is told of it. -/
def loadConfig (w : World) (asked : Option String) :
    Except Config.LoadError (Config × List Notice) := do
  let user := Config.userPath? w.home w.configHome
  match Config.fileRead w.places asked user with
  | none => .ok ({}, [])
  | some path =>
    let c ← Config.loadAt w.places path
    .ok (c, [⟨.debug, "loaded watch config", [("path", .shown path)]⟩])

/-- The configuration with the options of a watch laid over it. -/
def override (i : Invocation) (c : Config) : Config :=
  { c with
    package := i.package.getD c.package
    triggerUrl := i.triggerUrl.getD c.triggerUrl
    pollIntervalSecs := i.interval.getD c.pollIntervalSecs
    timeoutSecs := i.timeout.getD c.timeoutSecs
    maxPolls := i.maxPolls.or c.maxPolls }

/-! ## 3. Asking the daemon -/

/-- How a configuration's socket is asked. -/
def socketOf (c : Config) : Daemon.Socket :=
  ⟨c.socketPath, Daemon.Socket.usualHost, c.ioTimeoutSecs * 1000, Daemon.Socket.usualLimit⟩

/-- What lies at a socket's path. -/
def endpointOf (w : World) (path : String) : Daemon.Endpoint :=
  match w.places path with
  | .missing | .hidden => .missing
  | place =>
    if Daemon.addressLimit < (Bytes.ofText path).length then .unaddressable
    else
      match place with
      | .socket => .listening
      | _ => .refusing

/-- The response to the daemon's request number `n`, counted from zero. -/
def respond (w : World) (c : Config) (n : Nat) : Except Daemon.Error Http.Response :=
  (socketOf c).get (endpointOf w c.socketPath) (Http.replyAt w.daemon n)

/-- The number of requests that reach the daemon when so many are made. -/
def reaching (w : World) (c : Config) (n : Nat) : Nat :=
  match (socketOf c).dial (endpointOf w c.socketPath) with
  | .ok _ => n
  | .error _ => 0

/-- The effect of one request, before what is learned from it is shown. -/
def asked (w : World) (c : Config) (e : Effect) : Effect :=
  { e.tell (requestNotices (socketOf c) (endpointOf w c.socketPath) (respond w c 0)) with
    daemonRequests := reaching w c 1 }

/-- A daemon's error as the cause of a complaint. -/
def causesOf (e : Daemon.Error) : List String :=
  e.message :: e.causes

/-! ## 4. The commands -/

/-- Shows all packages. -/
def runList (w : World) (i : Invocation) (c : Config) (e : Effect) : Effect :=
  let r := respond w c 0
  let e := (asked w c e).tell (listNotices r)
  match Daemon.list r with
  | .error err => e.fail "failed to list installed packages" (causesOf err)
  | .ok ps =>
    if i.json then e.write ((Json.Value.list (ps.map packageJson)).writeLines ++ "\n")
    else if ps.isEmpty then e.write "No packages installed.\n"
    else e.write (packageTable ps)

/-- Shows one package. -/
def runInfo (w : World) (i : Invocation) (c : Config) (e : Effect) : Effect :=
  let name := i.package.getD c.package
  let r := respond w c 0
  let e := (asked w c e).tell (queryNotices name r)
  match Daemon.query name r with
  | .error err => e.fail ("failed to query '" ++ name ++ "'") (causesOf err)
  | .ok none => e.fail ("package '" ++ name ++ "' is not installed") []
  | .ok (some p) =>
    if i.json then e.write ((packageJson p).writeLines ++ "\n")
    else e.write (packageLines w.colors p)

/-- Says whether a package is installed. -/
def runInstalled (w : World) (i : Invocation) (c : Config) (e : Effect) : Effect :=
  let name := i.package.getD c.package
  let r := respond w c 0
  let e := (asked w c e).tell (queryNotices name r)
  match Daemon.query name r with
  | .error err => e.fail ("failed to query '" ++ name ++ "'") (causesOf err)
  | .ok none => e.fail ("package '" ++ name ++ "' is not installed") []
  | .ok (some p) => (e.tell [installedNotice p]).write ("✓ '" ++ name ++ "' is installed\n")

/-- What one watch of several meets, after so many requests to the daemon. It listens from its start
    on, to a channel that is empty then. -/
def surroundings (w : World) (c : Config) (iteration before : Nat) (call : Agent.Call) :
    Watch.Surroundings where
  answers n :=
    match Daemon.query c.package (respond w c (before + n)) with
    | .error (.http .overflow) =>
      .crashed (Watch.crashReport w.timing.task Http.Fault.overflow.message)
    | r => .ofResult r
  firing := .outcome call.outcome
  inbox := some { capacity := interruptCapacity }
  signals := w.interrupts iteration before

/-- What is told of a watch, each query as the daemon's client tells it. -/
def journalNotices (w : World) (c : Config) (s : Watch.Settings) : Nat → List Watch.Event →
    List Notice
  | _, [] => []
  | n, .asked :: events =>
    let r := respond w c n
    requestNotices (socketOf c) (endpointOf w c.socketPath) r ++ queryNotices c.package r ++
      journalNotices w c s (n + 1) events
  | n, event :: events =>
    watchNotices s c.triggerUrl (·.messageWith w.timing.waited) event ++
      journalNotices w c s n events

/-- Watches from one iteration on, so many being left. The summaries so far have the last in
    front. -/
def watchFrom (w : World) (i : Invocation) (c : Config) :
    Nat → Nat → Nat → List Json.Value → Effect → Effect
  | 0, _, _, summaries, e =>
    if i.json then e.write ((Json.Value.list summaries.reverse).writeLines ++ "\n") else e
  | left + 1, iteration, before, summaries, e =>
    let s := Watch.Settings.ofConfig c
    let call :=
      Agent.call w.agent w.timing.unreachable e.agentRequests.length c.triggerUrl
    let r := Watch.run s (surroundings w c iteration before call)
    let e := e.tell <|
      (⟨.info, "starting watch session",
        [("iteration", .number iteration), ("package", .shown s.package),
          ("trigger", .shown c.triggerUrl)]⟩ : Notice) ::
        journalNotices w c s before r.journal
    let e := { e with
      daemonRequests := e.daemonRequests + reaching w c r.queries
      agentRequests := e.agentRequests ++ if r.trigger.isSome then call.requests else [] }
    let e := if i.json then e else e.write (summaryLines w.colors w.timing iteration r)
    let summaries := summaryJson w.timing iteration r :: summaries
    match r.result with
    | .ok _ => watchFrom w i c left (iteration + 1) (before + r.queries) summaries e
    | .error err =>
      let e := if i.json then
          e.write ((Json.Value.list summaries.reverse).writeLines ++ "\n")
        else e
      e.fail ("watch iteration " ++ Decimal.text iteration ++ " failed")
        (err.messageWith w.timing.waited :: err.causes)

/-- Watches as often as asked, the options first laid over the configuration. -/
def runWatch (w : World) (i : Invocation) (c : Config) (e : Effect) : Effect :=
  let c := override i c
  if i.iterations = 0 then e.fail "--iterations must be at least 1" []
  else
    match c.check with
    | .error defect => e.fail "invalid watch settings" [defect.message]
    | .ok c => watchFrom w i c i.iterations 1 0 [] e

/-- Runs what an invocation asks for. -/
def perform (w : World) (i : Invocation) : Effect :=
  match loadConfig w i.config with
  | .error err => ({} : Effect).fail "failed to load snapwatch config" (err.message :: err.causes)
  | .ok (c, notices) =>
    let c := { c with socketPath := i.socket.getD c.socketPath }
    let e := ({} : Effect).tell notices
    match i.name with
    | .list => runList w i c e
    | .info => runInfo w i c e
    | .installed => runInstalled w i c e
    | .watch => runWatch w i c e

/-- Runs the program: what it was asked for, if that was understood, and what it did. Help and the
    version are written as output. -/
def run (w : World) (arguments : List String) : Option Invocation × Effect :=
  match read arguments with
  | .error .help => (none, { output := purpose ++ "\n" })
  | .error .version => (none, { output := Fault.version.message ++ "\n" })
  | .error f => (none, { exit := 2, complaint := some f.message })
  | .ok i =>
    let e := perform w i
    (some i, { e with notices := e.notices.filter (·.isTold w.logLevel) })

end RevisionWatch.Command
