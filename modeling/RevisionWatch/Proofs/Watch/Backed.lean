import RevisionWatch.Command.Run
import RevisionWatch.Proofs.Daemon.Listed
import RevisionWatch.Proofs.Watch.Success
/-!
# Successes and the bytes behind them

A watch that asks the daemon over its socket has a reply for every question. If it succeeds, the
bytes of these replies are good answers that list the package: up to the last at the revision from
which the watch set out, and in the last at the next revision, its one service active (`Backed`). No
false success comes about, whatever the daemon sends, whatever comes of telling the agent, and
whenever the watch is asked to stop.
-/

namespace RevisionWatch.Watch

open Daemon (Lists RevisionTree RunningTree)

/-- The answers to the questions for a package over a socket, each on a connection of its own. A
    length that its word does not hold crashes the question. -/
def answersOver (package : String) (socket : Daemon.Socket) (endpoint : Nat → Daemon.Endpoint)
    (replies : Nat → Http.Reply) (report : String) (n : Nat) : Answer :=
  match Daemon.query package (socket.get (endpoint n) (replies n)) with
  | .error (.http .overflow) => .crashed report
  | r => .ofResult r

variable {package report : String} {socket : Daemon.Socket} {endpoint : Nat → Daemon.Endpoint}
  {replies : Nat → Http.Reply}

/-- An iteration of the command asks over the socket of its configuration. -/
theorem surroundings_answers (w : Command.World) (c : Config) (iteration before : Nat)
    (call : Agent.Call) :
    (Command.surroundings w c iteration before call).answers =
      answersOver c.package (Command.socketOf c) (fun _ => Command.endpointOf w c.socketPath)
        (fun n => Http.replyAt w.daemon (before + n))
        (crashReport w.timing.task Http.Fault.overflow.message) :=
  rfl

/-- An answer that names the package is the client's. -/
theorem query_of_found {n : Nat} {p : Package}
    (h : answersOver package socket endpoint replies report n = .found p) :
    Daemon.query package (socket.get (endpoint n) (replies n)) = .ok (some p) := by
  unfold answersOver at h
  split at h
  · cases h
  · generalize Daemon.query package (socket.get (endpoint n) (replies n)) = r at h
    cases r with
    | error e => cases h
    | ok found =>
      cases found with
      | none => cases h
      | some q =>
        cases h
        rfl

/-- **What backs a success with poll `k`.** The replies are those that were read, from the first on;
    the agent was told between the first and the second. -/
structure Backed (package : String) (replies : Nat → Http.Reply) (o : Agent.Outcome)
    (before after : Revision) (k : Nat) (rep : Report) : Prop where
  polled : 1 ≤ k
  queries : rep.queries = k + 1
  firings : rep.firings = 1
  exchanges : ∃ b, b.revision = before ∧
    rep.exchanges = [.asked, .baseline b, .fired o] ++ List.replicate k .asked
  waiting : ∀ j < k, ∃ sent entry, replies j = .closes sent ∧ Lists package sent entry ∧
    RevisionTree before.number entry
  deciding : ∃ sent entry, replies k = .closes sent ∧ Lists package sent entry ∧
    RevisionTree after.number entry ∧ RunningTree entry
  step : after.number = before.number + 1

/-- **No success is false.** A watch over a socket that ends in success is backed by the bytes of
    the replies it read. -/
theorem success_backed (s : Settings) (socket : Daemon.Socket) (endpoint : Nat → Daemon.Endpoint)
    (replies : Nat → Http.Reply) (report : String) (firing : Firing) (inbox : Option Inbox)
    (signals : Signals) (fuel : Nat) (rep : Report) (before after : Revision)
    (h : run? s ⟨answersOver s.package socket endpoint replies report, firing, inbox, signals⟩
      fuel = some rep)
    (ho : rep.outcome = .succeeded before after) :
    ∃ k, Backed s.package replies firing.toOutcome before after k rep := by
  obtain ⟨k, hk⟩ := succeededAt_of_run? h ho
  refine ⟨k, hk.polled, hk.queries, hk.firings, hk.exchanges, fun j hj => ?_, ?_, hk.step⟩
  · obtain ⟨p, hfound, hrevision⟩ := hk.waiting j hj
    obtain ⟨sent, entry, hsent, hlists, hnumber, -⟩ := Daemon.query_found (query_of_found hfound)
    exact ⟨sent, entry, hsent, hlists, hrevision ▸ hnumber⟩
  · obtain ⟨p, hfound, hrevision, hrunning⟩ := hk.deciding
    obtain ⟨sent, entry, hsent, hlists, hnumber, hservice⟩ :=
      Daemon.query_found (query_of_found hfound)
    exact ⟨sent, entry, hsent, hlists, hrevision ▸ hnumber, hservice hrunning⟩

/-- The body of a reply that lists two packages, the second at a revision. -/
private def bodyAt (revision : String) : String :=
  "\x7b\"type\":\"sync\",\"result\":[\x7b\"name\":\"core\"\x7d," ++
    "\x7b\"name\":\"agent\",\"revision\":\"" ++ revision ++ "\"," ++
    "\"apps\":[\x7b\"name\":\"cli\"\x7d,\x7b\"daemon\":\"simple\",\"active\":true\x7d]\x7d]\x7d"

/-- The update shows at the second poll. That reply goes to the end of the connection; the others
    say their length. -/
private def updateReplies (n : Nat) : Http.Reply :=
  .closes <| Bytes.ofText <|
    if n < 2 then "HTTP/1.1 200 OK\r\nContent-Length: 134\r\n\r\n" ++ bodyAt "x42"
    else "HTTP/1.1 200 OK\r\n\r\n" ++ bodyAt "x43"

private def updateSocket : Daemon.Socket :=
  ⟨"/run/daemon.socket", Daemon.Socket.usualHost, Daemon.Socket.usualTimeoutMillis,
    Daemon.Socket.usualLimit⟩

private def updateSurroundings : Surroundings where
  answers := answersOver "agent" updateSocket (fun _ => .listening) updateReplies ""
  firing := .outcome (.accepted 202)

set_option maxRecDepth 100000 in
theorem success_backed_at_second_poll :
    ∃ rep k, run? ⟨"agent", 4, 10, none⟩ updateSurroundings 5 = some rep ∧
      rep.outcome = .succeeded ⟨42, by decide⟩ ⟨43, by decide⟩ ∧
      Backed "agent" updateReplies (.accepted 202) ⟨42, by decide⟩ ⟨43, by decide⟩ k rep := by
  have h : (run? ⟨"agent", 4, 10, none⟩ updateSurroundings 5).map Report.outcome =
      some (.succeeded ⟨42, by decide⟩ ⟨43, by decide⟩) := by
    decide +kernel
  obtain ⟨rep, hrep, ho⟩ := Option.map_eq_some_iff.1 h
  obtain ⟨k, hk⟩ := success_backed ⟨"agent", 4, 10, none⟩ updateSocket (fun _ => .listening)
    updateReplies "" (.outcome (.accepted 202)) none .silent 5 rep _ _ hrep ho
  exact ⟨rep, k, hrep, ho, hk⟩

end RevisionWatch.Watch
