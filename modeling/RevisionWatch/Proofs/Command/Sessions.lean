import RevisionWatch.Command.Run
/-!
# The watches of a command

A command runs one watch after another. `sessionsFrom` lists them as they come: each begins with the
reply of the daemon behind the last one that the watch before it read, and with the agent's next
reply; the first that does not succeed is the last. What `watchFrom` does is then said of this list
(`watchFrom_eq`): every session is told and shown in turn, and the last one decides how the command
ends (`ending`).
-/

namespace RevisionWatch.Command

open Watch (Report)

/-- A watch of a command: its iteration, the replies of the daemon that were read before it, the
    call of the agent it could make, and its report. -/
structure Session where
  iteration : Nat
  before : Nat
  call : Agent.Call
  report : Report

/-- The session of an iteration, after so many replies of the daemon and requests to the agent. -/
def sessionAt (w : World) (c : Config) (iteration before told : Nat) : Session :=
  let call := Agent.call w.agent w.timing.unreachable told c.triggerUrl
  ⟨iteration, before, call,
    Watch.run (.ofConfig c) (surroundings w c iteration before call)⟩

namespace Session

/-- The requests that the session made to the agent. -/
def requests (x : Session) : List String :=
  if x.report.trigger.isSome then x.call.requests else []

/-- The error that ends the command with this session. -/
def error? (x : Session) : Option Watch.Error :=
  match x.report.result with
  | .ok _ => none
  | .error e => some e

/-- What is told of the session. -/
def notices (w : World) (c : Config) (x : Session) : List Notice :=
  let s := Watch.Settings.ofConfig c
  ⟨.info, "starting watch session",
    [("iteration", .number x.iteration), ("package", .shown s.package),
      ("trigger", .shown c.triggerUrl)]⟩ :: journalNotices w c s x.before x.report.journal

/-- The effect once the session is over. -/
def after (w : World) (i : Invocation) (c : Config) (e : Effect) (x : Session) : Effect :=
  let e := e.tell (x.notices w c)
  let e := { e with
    daemonRequests := e.daemonRequests + reaching w c x.report.queries
    agentRequests := e.agentRequests ++ x.requests }
  if i.json then e else e.write (summaryLines w.colors w.timing x.iteration x.report)

/-- A session without an error succeeded. -/
theorem error?_eq_none (x : Session) : x.error? = none ↔ x.report.succeeded = true := by
  unfold error? Report.result Report.succeeded
  cases x.report.outcome <;> simp

end Session

/-- The sessions of a command from one iteration on, so many being left. -/
def sessionsFrom (w : World) (c : Config) : Nat → Nat → Nat → Nat → List Session
  | 0, _, _, _ => []
  | left + 1, iteration, before, told =>
    let x := sessionAt w c iteration before told
    match x.error? with
    | some _ => [x]
    | none =>
      x :: sessionsFrom w c left (iteration + 1) (before + x.report.queries)
        (told + x.requests.length)

/-- The sessions of a command that is to watch `n` times. -/
def sessions (w : World) (c : Config) (n : Nat) : List Session :=
  sessionsFrom w c n 1 0 0

/-- How the sessions of a command end: the iteration that failed and its error, or well. -/
def ending (xs : List Session) : Option (Nat × Watch.Error) :=
  xs.getLast?.bind fun x => x.error?.map (x.iteration, ·)

/-- The effect of a command at its end. -/
def conclude (w : World) (i : Invocation) (summaries : List Json.Value)
    (end? : Option (Nat × Watch.Error)) (e : Effect) : Effect :=
  let e := if i.json then e.write ((Json.Value.list summaries).writeLines ++ "\n") else e
  match end? with
  | none => e
  | some (iteration, err) =>
    e.fail ("watch iteration " ++ Decimal.text iteration ++ " failed")
      (err.messageWith w.timing.waited :: err.causes)

/-- One step of a command: a session, and then the others or the end. -/
theorem watchFrom_succ (w : World) (i : Invocation) (c : Config) (left iteration before : Nat)
    (summaries : List Json.Value) (e : Effect) :
    watchFrom w i c (left + 1) iteration before summaries e =
      let x := sessionAt w c iteration before e.agentRequests.length
      let summaries := summaryJson w.timing iteration x.report :: summaries
      match x.error? with
      | none =>
        watchFrom w i c left (iteration + 1) (before + x.report.queries) summaries (x.after w i c e)
      | some err => conclude w i summaries.reverse (some (iteration, err)) (x.after w i c e) := by
  rw [watchFrom]
  dsimp only
  unfold Session.error?
  cases h : (sessionAt w c iteration before e.agentRequests.length).report.result with
  | ok p =>
    rw [show (Watch.run (.ofConfig c) (surroundings w c iteration before
      (Agent.call w.agent w.timing.unreachable e.agentRequests.length c.triggerUrl))).result = _
      from h]
    rfl
  | error err =>
    rw [show (Watch.run (.ofConfig c) (surroundings w c iteration before
      (Agent.call w.agent w.timing.unreachable e.agentRequests.length c.triggerUrl))).result = _
      from h]
    rfl

theorem agentRequests_after (w : World) (i : Invocation) (c : Config) (e : Effect) (x : Session) :
    (x.after w i c e).agentRequests = e.agentRequests ++ x.requests := by
  unfold Session.after
  dsimp only
  split <;> rfl

theorem ending_cons {x : Session} (h : x.error? = none) (xs : List Session) :
    ending (x :: xs) = ending xs := by
  unfold ending
  cases xs with
  | nil => simp [h]
  | cons y ys => rw [List.getLast?_cons_cons]

/-- **What a command does is what its sessions do**, one after the other, and the end of the
    last. -/
theorem watchFrom_eq (w : World) (i : Invocation) (c : Config) :
    ∀ (left iteration before : Nat) (summaries : List Json.Value) (e : Effect),
      watchFrom w i c left iteration before summaries e =
        let xs := sessionsFrom w c left iteration before e.agentRequests.length
        conclude w i
          (summaries.reverse ++ xs.map fun x => summaryJson w.timing x.iteration x.report)
          (ending xs) (xs.foldl (Session.after w i c) e)
  | 0, _, _, summaries, e => by
    simp only [watchFrom, sessionsFrom, List.map_nil, List.append_nil, List.foldl_nil]
    rfl
  | left + 1, iteration, before, summaries, e => by
    rw [watchFrom_succ, sessionsFrom]
    dsimp only
    have hx : (sessionAt w c iteration before e.agentRequests.length).iteration = iteration := rfl
    generalize sessionAt w c iteration before e.agentRequests.length = x at hx ⊢
    cases h : x.error? with
    | some err => simp [ending, h, hx]
    | none =>
      dsimp only
      rw [watchFrom_eq w i c left, agentRequests_after, List.length_append, ending_cons h]
      simp only [List.reverse_cons, List.append_assoc, List.map_cons, List.foldl_cons, hx,
        List.cons_append, List.nil_append]

/-- The agent is sent what the sessions send it. -/
theorem agentRequests_foldl (w : World) (i : Invocation) (c : Config) :
    ∀ (xs : List Session) (e : Effect),
      (xs.foldl (Session.after w i c) e).agentRequests =
        e.agentRequests ++ xs.flatMap Session.requests
  | [], e => by simp
  | x :: xs, e => by
    rw [List.foldl_cons, agentRequests_foldl w i c xs, agentRequests_after, List.flatMap_cons,
      List.append_assoc]

/-- The end of a command leaves the agent alone. -/
theorem agentRequests_conclude (w : World) (i : Invocation) (summaries : List Json.Value)
    (end? : Option (Nat × Watch.Error)) (e : Effect) :
    (conclude w i summaries end? e).agentRequests = e.agentRequests := by
  unfold conclude
  cases end? <;> dsimp only <;> split <;> rfl

/-- A command whose sessions end with an error exits with it. -/
theorem conclude_some (w : World) (i : Invocation) (summaries : List Json.Value) (k : Nat)
    (err : Watch.Error) (e : Effect) :
    (conclude w i summaries (some (k, err)) e).exit = 1 ∧
      (conclude w i summaries (some (k, err)) e).complaint =
        some (Complaint.text ⟨"watch iteration " ++ Decimal.text k ++ " failed",
          err.messageWith w.timing.waited :: err.causes⟩) :=
  ⟨rfl, rfl⟩

/-! ## The list of sessions -/

section List

variable {w : World} {c : Config} {x y : Session} {n : Nat}

/-- A session is run with what was read and told before it. -/
theorem sessionsFrom_run : ∀ (left iteration before told : Nat),
    x ∈ sessionsFrom w c left iteration before told →
      ∃ told, x = sessionAt w c x.iteration x.before told
  | 0, _, _, _, h => absurd h List.not_mem_nil
  | left + 1, iteration, before, told, h => by
    rw [sessionsFrom] at h
    split at h
    · rw [List.mem_singleton.1 h]
      exact ⟨told, rfl⟩
    · rcases List.mem_cons.1 h with rfl | h
      · exact ⟨told, rfl⟩
      · exact sessionsFrom_run left _ _ _ h

/-- The sessions carry their iterations in order. -/
theorem sessionsFrom_iteration : ∀ (left iteration before told k : Nat),
    (sessionsFrom w c left iteration before told)[k]? = some x →
      x.iteration = iteration + k ∧ k < left
  | 0, _, _, _, k, h => by cases h
  | left + 1, iteration, before, told, 0, h => by
    rw [sessionsFrom] at h
    split at h <;> cases h <;> exact ⟨rfl, Nat.succ_pos left⟩
  | left + 1, iteration, before, told, k + 1, h => by
    rw [sessionsFrom] at h
    split at h
    · cases h
    · obtain ⟨hi, hk⟩ := sessionsFrom_iteration left (iteration + 1) _ _ k h
      exact ⟨by omega, by omega⟩

/-- A session with an error is the last. -/
theorem sessionsFrom_getLast : ∀ (left iteration before told : Nat),
    x ∈ sessionsFrom w c left iteration before told → x.error? ≠ none →
      (sessionsFrom w c left iteration before told).getLast? = some x
  | 0, _, _, _, h, _ => absurd h List.not_mem_nil
  | left + 1, iteration, before, told, h, hx => by
    rw [sessionsFrom] at h ⊢
    split at h
    · rw [List.mem_singleton.1 h]
      rfl
    · rename_i he
      rcases List.mem_cons.1 h with rfl | h
      · exact absurd he hx
      · have ih := sessionsFrom_getLast left (iteration + 1) _ _ h hx
        rw [List.getLast?_cons, ih]
        rfl

/-- A session of a command stands at the place of its iteration. -/
theorem getElem?_sessions (h : x ∈ sessions w c n) :
    1 ≤ x.iteration ∧ x.iteration ≤ n ∧ (sessions w c n)[x.iteration - 1]? = some x := by
  obtain ⟨k, hk⟩ := List.mem_iff_getElem?.1 h
  obtain ⟨hi, hlt⟩ := sessionsFrom_iteration n 1 0 0 k hk
  refine ⟨by omega, by omega, ?_⟩
  rw [hi, Nat.add_sub_cancel_left]
  exact hk

/-- An iteration has one session. -/
theorem eq_of_iteration_eq (hx : x ∈ sessions w c n) (hy : y ∈ sessions w c n)
    (h : x.iteration = y.iteration) : x = y := by
  have hx' := (getElem?_sessions hx).2.2
  have hy' := (getElem?_sessions hy).2.2
  rw [h, hy'] at hx'
  exact (Option.some.inj hx').symm

/-- No session comes behind one with an error. -/
theorem iteration_le_of_error (hx : x ∈ sessions w c n) (hy : y ∈ sessions w c n)
    (he : x.error? ≠ none) : y.iteration ≤ x.iteration := by
  obtain ⟨hx₁, -, hx₂⟩ := getElem?_sessions hx
  obtain ⟨hy₁, -, hy₂⟩ := getElem?_sessions hy
  have hlast := sessionsFrom_getLast n 1 0 0 hx he
  rw [List.getLast?_eq_getElem?] at hlast
  obtain ⟨hlt, -⟩ := List.getElem?_eq_some_iff.1 hy₂
  obtain ⟨hi, -⟩ := sessionsFrom_iteration n 1 0 0 _ hlast
  have hlen : (sessionsFrom w c n 1 0 0).length = (sessions w c n).length := rfl
  omega

/-- The error of a session is how the command ends. -/
theorem ending_eq_some {err : Watch.Error} (hx : x ∈ sessions w c n) (he : x.error? = some err) :
    ending (sessions w c n) = some (x.iteration, err) := by
  have hlast := sessionsFrom_getLast n 1 0 0 hx (he ▸ Option.some_ne_none err)
  unfold ending
  rw [show (sessions w c n).getLast? = some x from hlast, Option.bind_some, he]
  rfl

end List

end RevisionWatch.Command
