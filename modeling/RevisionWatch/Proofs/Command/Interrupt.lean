import RevisionWatch.Proofs.Command.Sessions
import RevisionWatch.Proofs.Watch.Moment
import RevisionWatch.Proofs.Watch.Pace
import RevisionWatch.Proofs.Watch.Quiet
/-!
# Interrupting a command

The user interrupts a command once. Each of its watches listens to a channel of its own, from its
start on, so it matters to which of them the interrupt comes, and where:

* `Broadcast` — the one value that is sent, within a watch or where no watch listens;
* `Broadcast.Obeyed` — what the user may expect: the agent is told no more, and the command is
  cancelled unless the watch that ran ended it anyway;
* `Broadcast.Lost` — the value comes where nothing looks for it any more.

The second holds exactly when the third does not (`obeyed_iff_not_lost`).
-/

namespace RevisionWatch.Command

open Watch (Moment Settings)

/-! ## 1. What is sent -/

/-- The single value sent to a command: at a moment of the watch of an iteration, or behind the end
    of one watch and before the start of the next. -/
inductive Broadcast where
  | within (iteration : Nat) (m : Moment)
  | between (iteration : Nat)
deriving DecidableEq, Repr

/-- The last session of a command is cancelled. -/
def Cancelled (xs : List Session) : Prop :=
  ∃ x, xs.getLast? = some x ∧ x.report.outcome = .cancelled

namespace Broadcast

/-- What the watches of a command are sent. -/
def interrupts : Broadcast → Interrupts
  | .within j m => fun iteration _ => if iteration = j then m.signals else .silent
  | .between _ => .never

/-- The value is sent in the course of the sessions. -/
def Happens (xs : List Session) : Broadcast → Prop
  | .within j m => ∃ x ∈ xs, x.iteration = j ∧ m.Came x.report
  | .between j => ∃ x ∈ xs, x.iteration = j + 1

/-- The value was sent before the session could tell the agent. -/
def Precedes (x : Session) : Broadcast → Prop
  | .within j m => j < x.iteration ∨ x.iteration = j ∧ m.PrecedesFiring
  | .between j => j < x.iteration

/-- The session to which the value is sent ends a command of `n` iterations by itself: it is the
    last, or it does not succeed for a reason of its own. -/
def EndsItself (n : Nat) (xs : List Session) : Broadcast → Prop
  | .within j _ => ∃ x ∈ xs, x.iteration = j ∧
      (j = n ∨ x.error? ≠ none ∧ x.report.outcome ≠ .cancelled)
  | .between _ => False

/-- **What the user may expect of the value**: from then on the agent is not told, and the command
    is cancelled unless it was ending. -/
structure Obeyed (n : Nat) (xs : List Session) (b : Broadcast) : Prop where
  once : ∀ x ∈ xs, x.report.firings ≤ 1
  untold : ∀ x ∈ xs, b.Precedes x → x.report.trigger = none ∧ x.report.firings = 0
  ended : b.EndsItself n xs ∨ Cancelled xs

/-- The value comes between two sessions, or in the query that completes one that succeeds and is
    not the last. -/
def Lost (n : Nat) (xs : List Session) : Broadcast → Prop
  | .within j m => j < n ∧ ∃ x ∈ xs, x.iteration = j ∧ x.report.succeeded = true ∧
      m = .query x.report.queries
  | .between _ => True

end Broadcast

/-! ## 2. One session -/

section Session

variable {w : World} {c : Config} {n : Nat} {x : Session} {m : Moment}

/-- A session is a watch that has come to its end. -/
theorem run?_of_mem (hI : 0 < c.pollIntervalSecs) (hx : x ∈ sessions w c n) :
    Watch.run? (.ofConfig c) (surroundings w c x.iteration x.before x.call)
      (Settings.ofConfig c).pollsInTime = some x.report := by
  obtain ⟨told, h⟩ := sessionsFrom_run n 1 0 0 hx
  rw [h]
  exact Watch.run?_pollsInTime _ _ (Nat.mul_pos hI (by decide))

/-- A session to which nothing is sent is not cancelled. -/
theorem not_cancelled_of_silent (hI : 0 < c.pollIntervalSecs) (hx : x ∈ sessions w c n)
    (hs : w.interrupts x.iteration x.before = .silent) : x.report.outcome ≠ .cancelled :=
  Watch.not_cancelled_of_quiet (Watch.Surroundings.quiet_silent rfl hs) (run?_of_mem hI hx)

/-- A session that does not succeed has an error. -/
theorem succeeded_or_error (x : Session) : x.report.succeeded = true ∨ x.error? ≠ none := by
  rw [← Session.error?_eq_none]
  exact Classical.em _

theorem error?_of_cancelled (h : x.report.outcome = .cancelled) :
    x.error? = some (.cancelled x.report.polls) := by
  unfold Session.error? Watch.Report.result
  rw [h]

/-- A cancelled session is the last. -/
theorem cancelled_of_mem (hx : x ∈ sessions w c n) (h : x.report.outcome = .cancelled) :
    Cancelled (sessions w c n) := by
  have he := error?_of_cancelled h
  exact ⟨x, sessionsFrom_getLast n 1 0 0 hx (he ▸ Option.some_ne_none _), h⟩

end Session

/-! ## 3. The value in a command -/

section Command

variable {w : World} {c : Config} {n j : Nat} {b : Broadcast} {m : Moment}

/-- A command that is cancelled fails with it. -/
theorem watchFrom_cancelled (i : Invocation) (e : Effect) (he : e.agentRequests = [])
    (h : Cancelled (sessions w c n)) :
    (watchFrom w i c n 1 0 [] e).exit = 1 ∧ ∃ x ∈ sessions w c n,
      (watchFrom w i c n 1 0 [] e).complaint = some (Complaint.text
        ⟨"watch iteration " ++ Decimal.text x.iteration ++ " failed",
          ["watch cancelled after " ++ Decimal.text x.report.polls ++ " polls"]⟩) := by
  obtain ⟨x, hlast, hc⟩ := h
  have hx : x ∈ sessions w c n := List.mem_of_getLast? hlast
  rw [watchFrom_eq, he]
  dsimp only
  rw [show ending (sessionsFrom w c n 1 0 ([] : List String).length) = _ from
    ending_eq_some hx (error?_of_cancelled hc)]
  obtain ⟨hexit, hcomplaint⟩ := conclude_some w i _ x.iteration (.cancelled x.report.polls) _
  exact ⟨hexit, x, hx, hcomplaint⟩

/-- The agent is told once in a session, or not at all. -/
theorem firings_of_mem (hI : 0 < c.pollIntervalSecs) {x : Session} (hx : x ∈ sessions w c n) :
    x.report.firings = if x.report.trigger.isSome then 1 else 0 :=
  Watch.firings_eq (run?_of_mem hI hx)

/-- A session ahead of its first request heeds the value. -/
theorem untold_of_precedesFiring (hw : w.interrupts = (Broadcast.within j m).interrupts)
    (hI : 0 < c.pollIntervalSecs) {x : Session} (hx : x ∈ sessions w c n) (hj : x.iteration = j)
    (hm : m.PrecedesFiring) : x.report.trigger = none := by
  have hs : (surroundings w c x.iteration x.before x.call).signals = m.signals := by
    show w.interrupts _ _ = _
    rw [hw]
    exact if_pos hj
  exact Watch.trigger_of_came rfl hs (run?_of_mem hI hx) hm

/-- **The session to which the value is sent** fails, or is cancelled, or has it in its last
    query. -/
theorem ending_of_within (hw : w.interrupts = (Broadcast.within j m).interrupts)
    (hI : 0 < c.pollIntervalSecs) {x : Session} (hx : x ∈ sessions w c n) (hj : x.iteration = j)
    (hm : m.Came x.report) :
    (∃ e, x.report.outcome = .failed e) ∨ x.report.outcome = .cancelled ∨
      m = .query x.report.queries := by
  have hs : (surroundings w c x.iteration x.before x.call).signals = m.signals := by
    show w.interrupts _ _ = _
    rw [hw]
    exact if_pos hj
  exact Watch.ending_of_came rfl hs (run?_of_mem hI hx) hm

/-- A value that is not lost in its session leaves no session behind it. -/
theorem last_of_not_lost (hw : w.interrupts = (Broadcast.within j m).interrupts)
    (hI : 0 < c.pollIntervalSecs) {x : Session} (hx : x ∈ sessions w c n) (hj : x.iteration = j)
    (hm : m.Came x.report) (hl : ¬ (Broadcast.within j m).Lost n (sessions w c n)) :
    j = n ∨ x.error? ≠ none := by
  rcases succeeded_or_error x with hok | he
  · refine .inl ?_
    have hle : x.iteration ≤ n := (getElem?_sessions hx).2.1
    rcases ending_of_within hw hI hx hj hm with ⟨e, ho⟩ | ho | hq
    · simp [Watch.Report.succeeded, ho] at hok
    · simp [Watch.Report.succeeded, ho] at hok
    · exact Nat.le_antisymm (hj ▸ hle) (Nat.le_of_not_lt fun hlt => hl ⟨hlt, x, hx, hj, hok, hq⟩)
  · exact .inr he

/-- A value that is not lost is obeyed. -/
theorem obeyed_of_not_lost (hw : w.interrupts = b.interrupts) (hI : 0 < c.pollIntervalSecs)
    (hb : b.Happens (sessions w c n)) (hl : ¬ b.Lost n (sessions w c n)) :
    b.Obeyed n (sessions w c n) := by
  cases b with
  | between j => exact absurd trivial hl
  | within j m =>
    obtain ⟨x, hx, hj, hm⟩ := hb
    have hlast := last_of_not_lost hw hI hx hj hm hl
    refine ⟨fun y hy => ?_, fun y hy hp => ?_, ?_⟩
    · rw [firings_of_mem hI hy]
      split <;> decide
    · have hnone : y.report.trigger = none := by
        rcases hp with hlt | ⟨hyj, hpre⟩
        · -- there is no session behind the one that was sent the value
          exfalso
          rcases hlast with rfl | he
          · exact absurd (getElem?_sessions hy).2.1 (Nat.not_le.2 hlt)
          · exact absurd (iteration_le_of_error hx hy he) (by omega)
        · exact untold_of_precedesFiring hw hI hy hyj hpre
      exact ⟨hnone, by rw [firings_of_mem hI hy, hnone]; rfl⟩
    · by_cases hc : x.report.outcome = .cancelled
      · exact .inr (cancelled_of_mem hx hc)
      · exact .inl ⟨x, hx, hj, hlast.imp_right fun he => ⟨he, hc⟩⟩

/-- A value that is lost is not obeyed: the other sessions are sent nothing. -/
theorem not_obeyed_of_lost (hw : w.interrupts = b.interrupts) (hI : 0 < c.pollIntervalSecs)
    (hl : b.Lost n (sessions w c n)) : ¬ b.Obeyed n (sessions w c n) := by
  rintro ⟨-, -, hends | ⟨z, hz, hc⟩⟩
  · cases b with
    | between j => exact hends
    | within j m =>
      obtain ⟨hlt, x, hx, hj, hok, -⟩ := hl
      obtain ⟨y, hy, hyj, hn | ⟨he, -⟩⟩ := hends
      · omega
      · rw [eq_of_iteration_eq hy hx (hyj.trans hj.symm)] at he
        exact he ((Session.error?_eq_none x).2 hok)
  · have hmem : z ∈ sessions w c n := List.mem_of_getLast? hz
    refine not_cancelled_of_silent hI hmem ?_ hc
    rw [hw]
    cases b with
    | between j => rfl
    | within j m =>
      obtain ⟨-, x, hx, hj, hok, -⟩ := hl
      refine if_neg fun hzj => ?_
      rw [eq_of_iteration_eq hmem hx (hzj.trans hj.symm)] at hc
      simp [Watch.Report.succeeded, hc] at hok

/-- **A value sent to a command is obeyed unless it is lost.** It is lost between two sessions and
    in the last query of a session that succeeds and is followed by another, and nowhere else. What
    reaches the agent is what the sessions send it, and a cancelled command fails and says so. -/
theorem obeyed_iff_not_lost (w : World) (c : Config) (n : Nat) (b : Broadcast)
    (hw : w.interrupts = b.interrupts) (hI : 0 < c.pollIntervalSecs)
    (hb : b.Happens (sessions w c n)) :
    (b.Obeyed n (sessions w c n) ↔ ¬ b.Lost n (sessions w c n)) ∧
    ∀ (i : Invocation) (e : Effect), e.agentRequests = [] →
      (watchFrom w i c n 1 0 [] e).agentRequests = (sessions w c n).flatMap Session.requests ∧
      (Cancelled (sessions w c n) →
        (watchFrom w i c n 1 0 [] e).exit = 1 ∧ ∃ x ∈ sessions w c n,
          (watchFrom w i c n 1 0 [] e).complaint = some (Complaint.text
            ⟨"watch iteration " ++ Decimal.text x.iteration ++ " failed",
              ["watch cancelled after " ++ Decimal.text x.report.polls ++ " polls"]⟩)) := by
  refine ⟨⟨fun ho hl => not_obeyed_of_lost hw hI hl ho, obeyed_of_not_lost hw hI hb⟩, ?_⟩
  intro i e he
  refine ⟨?_, watchFrom_cancelled i e he⟩
  rw [watchFrom_eq, he]
  dsimp only
  rw [agentRequests_conclude, agentRequests_foldl, he]
  rfl

end Command

/-! ## 4. Two updates and an interrupt -/

/-- A reply that lists one running package in a revision. -/
private def listingOf (revision : String) : Http.Reply :=
  .closes (Bytes.ofText ("HTTP/1.1 200 OK\r\n\r\n\x7b\"result\":[\x7b\"name\":\"agent\"," ++
    "\"revision\":\"x" ++ revision ++ "\",\"apps\":[\x7b\"daemon\":\"simple\"," ++
    "\"active\":true\x7d]\x7d]\x7d"))

/-- A daemon whose package is updated behind the first and behind the third request. -/
private def twoUpdates (b : Broadcast) : World where
  places _ := .socket
  home := none
  configHome := none
  daemon := [listingOf "1", listingOf "2", listingOf "2", listingOf "3"]
  agent := ⟨⟨"localhost", 30000⟩, none⟩
  logLevel := none
  colors := false
  interrupts := b.interrupts
  timing := ⟨"", "", "", fun _ => "", fun _ => "", fun _ => .null, "", ""⟩

private def watchingAgent : Config where
  package := "agent"

set_option maxRecDepth 100000 in
/-- In the first query of the second session of three the value is obeyed: the agent is not told
    again, the session is cancelled, and there is no third. -/
theorem obeyed_in_second_of_three :
    let xs := sessions (twoUpdates (.within 2 (.query 1))) watchingAgent 3
    (Broadcast.within 2 (.query 1)).Happens xs ∧ (Broadcast.within 2 (.query 1)).Obeyed 3 xs ∧
      xs.map (fun x => (x.report.outcome, x.report.firings)) =
        [(.succeeded ⟨1, by decide⟩ ⟨2, by decide⟩, 1), (.cancelled, 0)] := by
  intro xs
  have hb : (Broadcast.within 2 (.query 1)).Happens xs := by
    unfold Broadcast.Happens
    decide +kernel
  have hl : ¬(Broadcast.within 2 (.query 1)).Lost 3 xs := by
    unfold Broadcast.Lost
    decide +kernel
  exact ⟨hb, (obeyed_iff_not_lost _ _ 3 (.within 2 (.query 1)) rfl (by decide) hb).1.2 hl,
    by decide +kernel⟩

set_option maxRecDepth 100000 in
/-- In the last query of the first session it is lost: the agent is told again in the second, and
    the command ends well. -/
theorem lost_in_first_session :
    let xs := sessions (twoUpdates (.within 1 (.query 2))) watchingAgent 2
    (Broadcast.within 1 (.query 2)).Happens xs ∧
      ¬ (Broadcast.within 1 (.query 2)).Obeyed 2 xs ∧
      xs.map (fun x => (x.report.succeeded, x.report.firings)) = [(true, 1), (true, 1)] ∧
      ending xs = none := by
  intro xs
  have hb : (Broadcast.within 1 (.query 2)).Happens xs := by
    unfold Broadcast.Happens
    decide +kernel
  have hl : (Broadcast.within 1 (.query 2)).Lost 2 xs := by
    unfold Broadcast.Lost
    decide +kernel
  refine ⟨hb, not_obeyed_of_lost rfl (by decide) hl, by decide +kernel, by decide +kernel⟩

end RevisionWatch.Command
