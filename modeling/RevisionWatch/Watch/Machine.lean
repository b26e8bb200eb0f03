import RevisionWatch.Watch.Session
/-!
# A watch on a machine

A program counts its polls and its sleeps in words of 32 bits, and its clock has a last time that it
can tell. An addition to a counter that runs over stops a program that was built to look for that,
and lets the counter of any other begin again at zero; a time that the clock cannot tell stops the
program in any case. One that is stopped leaves no report.

`Machine.run?` is the watch of `Watch.Session` with its additions made on such a machine: to the two
counters, for the deadline, and for the end of every sleep, which is computed before it is cut short
at the deadline.
-/

namespace RevisionWatch.Watch

/-- What a watch runs on: whether the program was built to be stopped by a counter that runs over,
    and the last time that the clock can tell, in milliseconds from the start of the watch. -/
structure Machine where
  checked : Bool
  lastMillis : Nat
deriving DecidableEq, Repr

/-- The addition that stops a program. -/
inductive Overrun where
  | counter
  | clock
deriving DecidableEq, Repr, Inhabited

namespace Machine

/-- A checked program, and a clock whose seconds are a signed word of 64 bits. -/
def usual : Machine := ⟨true, 9223372036854775807 * 1000⟩

/-- One more on a counter. -/
def count (m : Machine) (n : Nat) : Except Overrun Nat :=
  if n + 1 < Decimal.word32 then .ok (n + 1)
  else if m.checked then .error .counter
  else .ok 0

/-- The time so many milliseconds after another. -/
def later (m : Machine) (now millis : Nat) : Except Overrun Nat :=
  if now + millis ≤ m.lastMillis then .ok (now + millis) else .error .clock

/-- Sleeps for an interval, but not past the deadline. What is sent meanwhile goes by the number of
    the sleep, which is that of the poll before it and not what the counter shows. -/
def sleep (m : Machine) (s : Settings) (w : Surroundings) (deadline : Nat) (r : Run) :
    Except Overrun (Bool × Run) := do
  let wake ← m.later r.clock s.intervalMillis
  let sleeps ← m.count r.sleeps
  let r := (({ r with sleeps }).note .slept).push (w.signals.inSleep (r.queries - 1))
  .ok (r.doze (min wake deadline))

/-- What a poll comes to once it is counted: the end of the watch, or the run in front of the next
    poll. -/
def judge (m : Machine) (s : Settings) (w : Surroundings) (deadline : Nat)
    (baseline current : Package) (r : Run) : Except Overrun ((Outcome × Run) ⊕ Run) :=
  match verdict baseline current with
  | .done =>
    .ok (.inl (.succeeded baseline.revision current.revision,
      r.note (.observed baseline.revision current.revision r.polls)))
  | .wrong e => .ok (.inl (.failed e, r))
  | .pending => do
    let r := if r.phase = .triggerSent then r.enter .polling else r
    if s.maxPolls.any (· ≤ r.polls) then .ok (.inl (.timedOut, r.note (.pollsUsedUp r.polls)))
    else if deadline ≤ r.clock then .ok (.inl (.timedOut, r.note (.timeUsedUp r.polls)))
    else
      let (asked, r) ← m.sleep s w deadline r
      .ok (if asked then .inl (.cancelled, r) else .inr r)

/-- One round of polling. -/
def round (m : Machine) (s : Settings) (w : Surroundings) (deadline : Nat) (baseline : Package)
    (r : Run) : Except Overrun ((Outcome × Run) ⊕ Run) :=
  if r.isAsked then .ok (.inl (.cancelled, r))
  else
    match r.ask s w with
    | (.error e, r) => .ok (.inl (.failed e, r))
    | (.ok current, r) => do
      let polls ← m.count r.polls
      m.judge s w deadline baseline current { r with polls }

/-- Polls until something ends the watch or stops the program. -/
def pollFrom (m : Machine) (s : Settings) (w : Surroundings) (deadline : Nat)
    (baseline : Package) : Nat → Run → Option (Except Overrun (Outcome × Run))
  | 0, _ => none
  | fuel + 1, r =>
    match m.round s w deadline baseline r with
    | .error overrun => some (.error overrun)
    | .ok (.inl ended) => some (.ok ended)
    | .ok (.inr r) => pollFrom m s w deadline baseline fuel r

/-- A watch from the computation of its deadline on. -/
def drive (m : Machine) (s : Settings) (w : Surroundings) (fuel : Nat) (r : Run) :
    Option (Except Overrun (Outcome × Run)) :=
  match m.later r.clock s.timeoutMillis with
  | .error overrun => some (.error overrun)
  | .ok deadline =>
    match r.ask s w with
    | (.error e, r) => some (.ok (.failed e, r))
    | (.ok baseline, r) =>
      let r := { r.note (.baseline baseline) with baseline := some baseline }
      if r.isAsked then some (.ok (.cancelled, r))
      else m.pollFrom s w deadline baseline fuel ((r.fire w).enter .triggerSent)

/-- The report of a watch that ends within `fuel` polls, or what stopped the program. -/
def run? (m : Machine) (s : Settings) (w : Surroundings) (fuel : Nat) :
    Option (Except Overrun Report) :=
  (m.drive s w fuel (Run.start w)).map fun result =>
    result.map fun (outcome, r) => r.report s outcome

end Machine

end RevisionWatch.Watch
