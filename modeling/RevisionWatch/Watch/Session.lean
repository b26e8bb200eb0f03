import RevisionWatch.Agent.Outcome
import RevisionWatch.Config
import RevisionWatch.Package
import RevisionWatch.Watch.Error
import RevisionWatch.Watch.Signal
/-!
# One watch

A watch asks for the package once, so that it knows the revision before anything changes; tells
the agent to update; and then asks again and again until an answer decides. An answer with the
same revision is waited out, any other decides: one step up with the service running is success.
It ends without a decision when the polls or the time are used up, or when it is asked to stop,
which it looks for before it tells the agent, before every poll, and while it sleeps.

Everything outside is given beforehand: the answer to each query, what comes of telling the agent,
and what is sent to stop the watch. Time passes only in sleep. What the watch did is kept in its
journal, in order.

Here polls and sleeps are counted and times are added without bound; `Watch.Machine` is the same
watch with the counters and the clock of a machine.
-/

namespace RevisionWatch.Watch

/-! ## 1. What is known at the end -/

/-- Where a watch stands. -/
inductive Phase where
  | idle
  | triggerSent
  | polling
  | succeeded
  | timedOut
  | failed
  | cancelled
deriving DecidableEq, Repr, Inhabited

/-- How a watch ended. -/
inductive Outcome where
  | succeeded (before after : Revision)
  | timedOut
  | cancelled
  | failed (e : Error)
deriving DecidableEq, Repr, Inhabited

/-- The phase in which an outcome leaves the watch. -/
def Outcome.phase : Outcome → Phase
  | .succeeded _ _ => .succeeded
  | .timedOut => .timedOut
  | .cancelled => .cancelled
  | .failed _ => .failed

/-- What a watch did or found. -/
inductive Event where
  | asked
  | baseline (p : Package)
  | fired (outcome : Agent.Outcome)
  | moved (source target : Phase)
  | observed (before after : Revision) (polls : Nat)
  | pollsUsedUp (polls : Nat)
  | timeUsedUp (polls : Nat)
  | slept
  | failed (e : Error)
deriving DecidableEq, Repr, Inhabited

/-- Everything known when a watch has ended. -/
structure Report where
  package : String
  outcome : Outcome
  baseline : Option Package
  lastKnown : Option Package
  trigger : Option Agent.Outcome
  polls : Nat
  sleeps : Nat
  transitions : List Phase
  elapsedMillis : Nat
  queries : Nat
  journal : List Event
deriving DecidableEq, Repr, Inhabited

namespace Report

/-- The watch succeeded. -/
def succeeded (r : Report) : Bool :=
  match r.outcome with
  | .succeeded _ _ => true
  | _ => false

/-- The two revisions, or the error that stands for the outcome. -/
def result (r : Report) : Except Error (Revision × Revision) :=
  match r.outcome with
  | .succeeded before after => .ok (before, after)
  | .timedOut => .error (.timedOut r.elapsedMillis r.polls)
  | .cancelled => .error (.cancelled r.polls)
  | .failed e => .error e

/-- How often the agent was told. -/
def firings (r : Report) : Nat :=
  r.journal.countP fun
    | .fired _ => true
    | _ => false

end Report

/-! ## 2. What is given -/

/-- What a watch is told: the package, how long it sleeps, how long it takes, and how often it
    polls. -/
structure Settings where
  package : String
  intervalMillis : Nat
  timeoutMillis : Nat
  maxPolls : Option Nat
deriving DecidableEq, Repr, Inhabited

/-- The settings that a configuration gives. -/
def Settings.ofConfig (c : Config) : Settings :=
  ⟨c.package, c.pollIntervalSecs * 1000, c.timeoutSecs * 1000, c.maxPolls⟩

/-- What a query comes to: the package, its absence, an error, or a crash and its report. -/
inductive Answer where
  | found (p : Package)
  | absent
  | refused (e : Daemon.Error)
  | crashed (report : String)
deriving DecidableEq, Repr, Inhabited

/-- The answer that a client gives. -/
def Answer.ofResult : Except Daemon.Error (Option Package) → Answer
  | .ok (some p) => .found p
  | .ok none => .absent
  | .error e => .refused e

/-- What telling the agent comes to, which may be a crash and its report. -/
inductive Firing where
  | outcome (o : Agent.Outcome)
  | crashed (report : String)
deriving DecidableEq, Repr, Inhabited

/-- A crash is an agent that cannot be reached. -/
def Firing.toOutcome : Firing → Agent.Outcome
  | .outcome o => o
  | .crashed report => .unreachable ("trigger task failed: " ++ report)

/-- What a watch meets. Queries are counted from zero. A watch without an inbox cannot be
    stopped. -/
structure Surroundings where
  answers : Nat → Answer
  firing : Firing
  inbox : Option Inbox := none
  signals : Signals := .silent

/-! ## 3. Verdicts -/

/-- The package of an answer, or why there is none. -/
def Answer.package (s : Settings) : Answer → Except Error Package
  | .found p => .ok p
  | .absent => .error (.notInstalled s.package)
  | .refused e => .error (.daemon e)
  | .crashed report => .error (.crashed report)

/-- What a poll decides. -/
inductive Verdict where
  | done
  | pending
  | wrong (e : Error)
deriving DecidableEq, Repr

/-- Compares a poll with the baseline. -/
def verdict (baseline current : Package) : Verdict :=
  let before := baseline.revision
  let after := current.revision
  if after = before then .pending
  else if after < before then .wrong (.regressed before after)
  else if after ≠ before.next then .wrong (.jumped before after)
  else if current.isRunning then .done
  else .wrong (.notRunning before after)

/-! ## 4. The run -/

/-- A watch under way. The journal and the transitions have the last in front. -/
structure Run where
  clock : Nat := 0
  queries : Nat := 0
  polls : Nat := 0
  sleeps : Nat := 0
  phase : Phase := .idle
  transitions : List Phase := [.idle]
  baseline : Option Package := none
  lastKnown : Option Package := none
  trigger : Option Agent.Outcome := none
  inbox : Option Inbox := none
  due : List (Nat × Sent) := []
  journal : List Event := []
deriving Inhabited

namespace Run

/-- Adds an event to the journal. -/
def note (r : Run) (e : Event) : Run :=
  { r with journal := e :: r.journal }

/-- Enters a phase. -/
def enter (r : Run) (p : Phase) : Run :=
  { r.note (.moved r.phase p) with phase := p, transitions := p :: r.transitions }

/-- The run once something has been sent. -/
def push (r : Run) (sent : List Sent) : Run :=
  { r with inbox := r.inbox.map fun i => sent.foldl Inbox.push i }

/-- What lies in the inbox asks the watch to stop. Once it does the watch ends, so nothing needs to
    be taken out. -/
def isAsked (r : Run) : Bool :=
  r.inbox.any fun i => i.receive.1.asks

/-- Asks for the package. -/
def ask (s : Settings) (w : Surroundings) (r : Run) : Except Error Package × Run :=
  let result := (w.answers r.queries).package s
  let r := (({ r with queries := r.queries + 1 }).note .asked).push
    (w.signals.inQuery (r.queries + 1))
  match result with
  | .ok p => (.ok p, { r with lastKnown := some p })
  | .error e => (.error e, r)

/-- Tells the agent to update. -/
def fire (w : Surroundings) (r : Run) : Run :=
  let outcome := w.firing.toOutcome
  (({ r with trigger := some outcome }).note (.fired outcome)).push w.signals.inFiring

/-- What is sent at times up to `wake`; then the time before that at which the watch is asked to
    stop. -/
def overhear (wake : Nat) : List (Nat × Sent) → Run → Option Nat × Run
  | [], r => (none, { r with due := [] })
  | (t, sent) :: due, r =>
    if t ≤ wake then
      let r := r.push [sent]
      if r.isAsked && t < wake then (some t, { r with due }) else overhear wake due r
    else (none, { r with due := (t, sent) :: due })

/-- Sleeps until `wake`. The truth value says that the watch was woken to stop. -/
def doze (wake : Nat) (r : Run) : Bool × Run :=
  if r.isAsked then (true, r)
  else
    match overhear wake r.due r with
    | (some t, r) => (true, { r with clock := max r.clock t })
    | (none, r) => (false, { r with clock := wake })

/-- Sleeps for an interval, but not past the deadline. -/
def sleep (s : Settings) (w : Surroundings) (r : Run) : Bool × Run :=
  let wake := min (r.clock + s.intervalMillis) s.timeoutMillis
  let r := (({ r with sleeps := r.sleeps + 1 }).note .slept).push (w.signals.inSleep (r.sleeps + 1))
  r.doze wake

/-- Polls until something ends the watch. -/
def pollFrom (s : Settings) (w : Surroundings) (baseline : Package) :
    Nat → Run → Option (Outcome × Run)
  | 0, _ => none
  | fuel + 1, r =>
    if r.isAsked then some (.cancelled, r)
    else
      match r.ask s w with
      | (.error e, r) => some (.failed e, r)
      | (.ok current, r) =>
        let r := { r with polls := r.polls + 1 }
        match verdict baseline current with
        | .done =>
          some (.succeeded baseline.revision current.revision,
            r.note (.observed baseline.revision current.revision r.polls))
        | .wrong e => some (.failed e, r)
        | .pending =>
          let r := if r.phase = .triggerSent then r.enter .polling else r
          if s.maxPolls.any (· ≤ r.polls) then some (.timedOut, r.note (.pollsUsedUp r.polls))
          else if s.timeoutMillis ≤ r.clock then some (.timedOut, r.note (.timeUsedUp r.polls))
          else
            let (asked, r) := r.sleep s w
            if asked then some (.cancelled, r) else pollFrom s w baseline fuel r

/-- A watch from its first query on. -/
def drive (s : Settings) (w : Surroundings) (fuel : Nat) (r : Run) : Option (Outcome × Run) :=
  match r.ask s w with
  | (.error e, r) => some (.failed e, r)
  | (.ok baseline, r) =>
    let r := { r.note (.baseline baseline) with baseline := some baseline }
    if r.isAsked then some (.cancelled, r)
    else pollFrom s w baseline fuel ((r.fire w).enter .triggerSent)

/-- What is known once a watch has ended. -/
def report (s : Settings) (outcome : Outcome) (r : Run) : Report :=
  let r := r.enter outcome.phase
  let r := match outcome with
    | .failed e => r.note (.failed e)
    | _ => r
  { package := s.package
    outcome
    baseline := r.baseline
    lastKnown := r.lastKnown
    trigger := r.trigger
    polls := r.polls
    sleeps := r.sleeps
    transitions := r.transitions.reverse
    elapsedMillis := r.clock
    queries := r.queries
    journal := r.journal.reverse }

/-- The start of a watch. -/
def start (w : Surroundings) : Run :=
  let now := w.signals.atTimes.takeWhile (·.1 = 0)
  ({ inbox := w.inbox, due := w.signals.atTimes.drop now.length } : Run).push
    (w.signals.atStart ++ now.map (·.2))

end Run

/-- The report of a watch that ends within `fuel` polls; a watch that never sleeps may not end. -/
def run? (s : Settings) (w : Surroundings) (fuel : Nat) : Option Report :=
  (Run.drive s w fuel (Run.start w)).map fun (outcome, r) => r.report s outcome

/-- As many polls as a watch that sleeps can make before its time is used up. -/
def Settings.pollsInTime (s : Settings) : Nat :=
  s.timeoutMillis / s.intervalMillis + 2

/-- The report of a watch that sleeps between its polls. -/
def run (s : Settings) (w : Surroundings) : Report :=
  (run? s w s.pollsInTime).getD default

end RevisionWatch.Watch
