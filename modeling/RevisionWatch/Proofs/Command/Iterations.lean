import RevisionWatch.Proofs.Command.Sessions
import RevisionWatch.Proofs.Command.Shown
import RevisionWatch.Proofs.Watch.Bounded
/-!
# Watching several times

A command that is to watch `n` times runs the sessions of a row: each begins where the one before it
ended, and there is a next one as long as they succeed (`InRow`). How many of the row are run is
said of the row alone, by its first session that does not succeed, and what the command shows,
asks and returns is said of those that are run (`Concludes`): each is shown once, by a text
(`ShowsText`) or by an object of the one list that is written (`ShowsTree`). The main statement is
`runWatch_concludes`; behind it stands that the recursion over the iterations takes the row from its
front (`sessionsFrom_eq_map`).
-/

namespace RevisionWatch.Command

open Watch (Settings)

/-! ## 1. Sessions in a row -/

/-- **Sessions in a row.** They are numbered from one; each reads the daemon's replies from behind
    the last one that was read before it, one for every query, and calls the agent behind the calls
    before it; each is a watch that has come to its end. -/
structure InRow (w : World) (c : Config) (x : Nat → Session) : Prop where
  numbered : ∀ j, (x j).iteration = j + 1
  before : ∀ j, (x j).before = ((List.range j).map fun i => (x i).report.queries).sum
  call : ∀ j, (x j).call = Agent.call w.agent w.timing.unreachable
    ((List.range j).map fun i => (x i).requests.length).sum c.triggerUrl
  runs : ∀ j, Watch.run? (.ofConfig c) (surroundings w c (x j).iteration (x j).before (x j).call)
    (Settings.ofConfig c).pollsInTime = some (x j).report

section Row

variable {w : World} {c : Config}

/-- How many replies were read and how many requests were sent to the agent before a session of
    the row. -/
def started (w : World) (c : Config) : Nat → Nat × Nat
  | 0 => (0, 0)
  | j + 1 =>
    let (before, told) := started w c j
    let x := sessionAt w c (j + 1) before told
    (before + x.report.queries, told + x.requests.length)

/-- The sessions of the row, counted from zero. -/
def inRow (w : World) (c : Config) (j : Nat) : Session :=
  sessionAt w c (j + 1) (started w c j).1 (started w c j).2

theorem started_succ (j : Nat) : started w c (j + 1) =
    ((started w c j).1 + (inRow w c j).report.queries,
      (started w c j).2 + (inRow w c j).requests.length) := rfl

theorem started_eq (j : Nat) : started w c j =
    (((List.range j).map fun i => (inRow w c i).report.queries).sum,
      ((List.range j).map fun i => (inRow w c i).requests.length).sum) := by
  induction j with
  | zero => rfl
  | succ j ih =>
    rw [started_succ, ih]
    simp [List.range_succ]

/-- There is a row. -/
theorem inRow_inRow (hI : 0 < c.pollIntervalSecs) : InRow w c (inRow w c) where
  numbered _ := rfl
  before j := by
    show (started w c j).1 = _
    rw [started_eq]
  call j := by
    show Agent.call _ _ (started w c j).2 _ = _
    rw [started_eq]
  runs j := Watch.run?_pollsInTime _ _ (Nat.mul_pos hI (by decide))

/-- In every session of a row the agent is told once, if at all. -/
theorem InRow.firings {x : Nat → Session} (h : InRow w c x) (j : Nat) :
    (x j).report.firings = if (x j).report.trigger.isSome then 1 else 0 :=
  Watch.firings_eq (h.runs j)

/-- A session that fails is the last one. -/
theorem sessionsFrom_of_error {j : Nat} {err : Watch.Error} (left : Nat)
    (h : (inRow w c j).error? = some err) :
    sessionsFrom w c (left + 1) (j + 1) (started w c j).1 (started w c j).2 = [inRow w c j] := by
  unfold inRow at h ⊢
  simp only [sessionsFrom, h]

/-- Behind a session that does not fail stand those from the next one on. -/
theorem sessionsFrom_of_success {j : Nat} (left : Nat) (h : (inRow w c j).error? = none) :
    sessionsFrom w c (left + 1) (j + 1) (started w c j).1 (started w c j).2 =
      inRow w c j ::
        sessionsFrom w c left (j + 1 + 1) (started w c (j + 1)).1 (started w c (j + 1)).2 := by
  rw [started_succ]
  unfold inRow at h ⊢
  simp only [sessionsFrom, h]

/-- The sessions from one of the row on are the next ones of the row, up to the first that does not
    succeed or to as many as are left. -/
theorem sessionsFrom_eq_map : ∀ (left j : Nat), 0 < left →
    ∃ l < left, (∀ i < l, (inRow w c (j + i)).report.succeeded = true) ∧
      (l + 1 = left ∨ (inRow w c (j + l)).report.succeeded = false) ∧
      sessionsFrom w c left (j + 1) (started w c j).1 (started w c j).2 =
        (List.range (l + 1)).map fun i => inRow w c (j + i)
  | 0, _, h => absurd h (Nat.lt_irrefl 0)
  | left + 1, j, _ => by
    cases herr : (inRow w c j).error? with
    | some err =>
      have hfail : (inRow w c j).report.succeeded = false := by
        have hne := mt (Session.error?_eq_none (inRow w c j)).2 (herr ▸ Option.some_ne_none err)
        simpa using hne
      refine ⟨0, Nat.succ_pos left, fun i hi => absurd hi (Nat.not_lt_zero i), .inr hfail, ?_⟩
      rw [sessionsFrom_of_error left herr]
      rfl
    | none =>
      have hgood : (inRow w c j).report.succeeded = true := (Session.error?_eq_none _).1 herr
      by_cases hleft : left = 0
      · subst hleft
        refine ⟨0, Nat.one_pos, fun i hi => absurd hi (Nat.not_lt_zero i), .inl rfl, ?_⟩
        rw [sessionsFrom_of_success 0 herr]
        rfl
      · obtain ⟨l, hl, hbefore, hstop, hrest⟩ :=
          sessionsFrom_eq_map left (j + 1) (Nat.pos_of_ne_zero hleft)
        have hshift (i : Nat) : j + 1 + i = j + (i + 1) := by omega
        simp only [hshift] at hbefore hstop hrest
        refine ⟨l + 1, Nat.succ_lt_succ hl, fun i hi => ?_, ?_, ?_⟩
        · cases i with
          | zero => exact hgood
          | succ i => exact hbefore i (Nat.lt_of_succ_lt_succ hi)
        · exact hstop.imp_left (congrArg Nat.succ)
        · rw [sessionsFrom_of_success left herr, hrest,
            List.range_succ_eq_map (n := l + 1), List.map_cons, List.map_map]
          rfl

end Row

/-! ## 2. The effect of the sessions -/

section Effects

variable {w : World} {i : Invocation} {c : Config}

/-- What a list of sessions adds to an effect. -/
theorem foldl_after (xs : List Session) (e : Effect) :
    let e' := xs.foldl (Session.after w i c) e
    e'.exit = e.exit ∧ e'.complaint = e.complaint ∧
      e'.daemonRequests = e.daemonRequests + reaching w c (xs.map (·.report.queries)).sum ∧
      e'.output = e.output ++ if i.json then "" else
        String.join (xs.map fun x => summaryLines w.colors w.timing x.iteration x.report) := by
  induction xs generalizing e with
  | nil =>
    have hnone : reaching w c 0 = 0 := by
      unfold reaching
      split <;> rfl
    simp [hnone]
  | cons x xs ih =>
    have hsum (m n : Nat) : reaching w c (m + n) = reaching w c m + reaching w c n := by
      unfold reaching
      split <;> rfl
    obtain ⟨hexit, hcomplaint, hdaemon, houtput⟩ := ih (x.after w i c e)
    simp only [List.foldl_cons, List.map_cons, List.sum_cons, hsum]
    rw [hexit, hcomplaint, hdaemon, houtput]
    unfold Session.after Effect.tell Effect.write
    cases i.json <;> simp [Nat.add_assoc, String.append_assoc]

/-- **What a command comes to** after the sessions it ran, `n` being asked for. All of them are
    shown, by a text each or together in one list of JSON, which is all that is written; each has
    made its queries and has called the agent if it told it; the command does well if `n` have
    succeeded, and else complains of the last. -/
structure Concludes (w : World) (i : Invocation) (c : Config) (n : Nat) (xs : List Session)
    (e : Effect) : Prop where
  shown : e.output =
    if i.json then
      (Json.Value.list (xs.map fun x => summaryJson w.timing x.iteration x.report)).writeLines ++
        "\n"
    else String.join (xs.map fun x => summaryLines w.colors w.timing x.iteration x.report)
  texts : i.json = false → ∃ texts, e.output = String.join texts ∧
    List.Forall₂ (fun x => ShowsText w.colors w.timing x.iteration x.report) xs texts
  trees : i.json = true → w.timing.IsSpelled → ∃ trees,
    Json.IsText (Bytes.ofText e.output) (.list trees) ∧
      List.Forall₂ (fun x => ShowsTree w.timing x.iteration x.report) xs trees
  daemon : e.daemonRequests = reaching w c (xs.map (·.report.queries)).sum
  agent : e.agentRequests = xs.flatMap Session.requests
  good : e.exit = 0 ↔ xs.length = n ∧ ∀ x ∈ xs, x.report.succeeded = true
  complaint : ∀ x, xs.getLast? = some x → e.complaint = x.error?.map fun err =>
    Complaint.text ⟨"watch iteration " ++ Decimal.text x.iteration ++ " failed",
      err.messageWith w.timing.waited :: err.causes⟩

variable {xs : List Session} {n : Nat}

/-- How sessions end that are those of a row up to its first that does not succeed, or up to the
    `n`th. -/
theorem ending_of_stop {l : Nat} {x : Nat → Session} (hl : l < n)
    (hstop : l + 1 = n ∨ (x l).report.succeeded = false) :
    let xs := (List.range (l + 1)).map x
    xs.getLast? = some (x l) ∧ ending xs = (x l).error?.map ((x l).iteration, ·) ∧
      ((∀ j < l, (x j).report.succeeded = true) →
        ((x l).error? = none ↔ xs.length = n ∧ ∀ y ∈ xs, y.report.succeeded = true)) := by
  intro xs
  have hxs : xs = (List.range l).map x ++ [x l] := by
    simp [xs, List.range_succ]
  have hlast : xs.getLast? = some (x l) := by
    rw [hxs, List.getLast?_concat]
  have hlen : xs.length = l + 1 := by simp [xs]
  refine ⟨hlast, ?_, fun hbefore => ?_⟩
  · unfold ending
    rw [hlast]
    rfl
  · rw [Session.error?_eq_none]
    constructor
    · intro hgood
      have hn : l + 1 = n := hstop.resolve_right (by rw [hgood]; exact Bool.noConfusion)
      refine ⟨hlen.trans hn, fun y hy => ?_⟩
      obtain ⟨j, hj, rfl⟩ := List.mem_map.1 hy
      have hj : j < l + 1 := List.mem_range.1 hj
      rcases Nat.lt_succ_iff_lt_or_eq.1 hj with hlt | rfl
      · exact hbefore j hlt
      · exact hgood
    · rintro ⟨-, hall⟩
      exact hall (x l) (List.mem_of_getLast? hlast)

/-- What a command adds to an effect behind its last session. -/
theorem conclude_eq (summaries : List Json.Value) (end? : Option (Nat × Watch.Error)) (e : Effect) :
    let e' := conclude w i summaries end? e
    e'.output = (if i.json then e.output ++ ((Json.Value.list summaries).writeLines ++ "\n")
      else e.output) ∧
      e'.daemonRequests = e.daemonRequests ∧
      e'.exit = (if end?.isNone then e.exit else 1) ∧
      e'.complaint = match end? with
        | none => e.complaint
        | some (iteration, err) => some (Complaint.text
          ⟨"watch iteration " ++ Decimal.text iteration ++ " failed",
            err.messageWith w.timing.waited :: err.causes⟩) := by
  unfold conclude Effect.write Effect.fail
  cases end? <;> cases i.json <;> exact ⟨rfl, rfl, rfl, rfl⟩

/-- Every session of a row is shown by a text of its own. -/
theorem exists_texts {x : Nat → Session} (hx : InRow w c x) (js : List Nat) :
    ∃ texts, String.join ((js.map x).map fun x =>
        summaryLines w.colors w.timing x.iteration x.report) = String.join texts ∧
      List.Forall₂ (fun x => ShowsText w.colors w.timing x.iteration x.report) (js.map x) texts := by
  refine ⟨_, rfl, List.forall₂_map_right_iff.2 (List.forall₂_same.2 fun y hy => ?_)⟩
  obtain ⟨j, -, rfl⟩ := List.mem_map.1 hy
  exact summaryLines_shows (Watch.accounts_of_run? (hx.runs j)).toRecorded _ _ _

/-- Sessions are shown by one list of JSON, with an object for each. -/
theorem exists_trees (xs : List Session) (h : w.timing.IsSpelled) :
    ∃ trees, Json.IsText (Bytes.ofText ((Json.Value.list (xs.map fun x =>
        summaryJson w.timing x.iteration x.report)).writeLines ++ "\n")) (.list trees) ∧
      List.Forall₂ (fun x => ShowsTree w.timing x.iteration x.report) xs trees := by
  choose millis hmillis using h
  refine ⟨xs.map fun x =>
    summaryTree w.timing x.iteration x.report (millis x.report.elapsedMillis), ?_, ?_⟩
  · refine (Json.printsLines_list ?_).isText
    rw [List.forall₂_map_left_iff, List.forall₂_map_right_iff]
    exact List.forall₂_same.2 fun x _ => printsLines_summaryJson (hmillis _) x.iteration
  · rw [List.forall₂_map_right_iff]
    exact List.forall₂_same.2 fun x _ => summaryTree_shows (hmillis _) x.iteration

/-- What sessions come to that run in a row up to the first that does not succeed, or up to the
    `n`th. -/
theorem concludes_of_row {l : Nat} {x : Nat → Session} {e : Effect} (hx : InRow w c x) (hl : l < n)
    (hbefore : ∀ j < l, (x j).report.succeeded = true)
    (hstop : l + 1 = n ∨ (x l).report.succeeded = false)
    (he : e.exit = 0 ∧ e.output = "" ∧ e.complaint = none ∧ e.daemonRequests = 0 ∧
      e.agentRequests = []) :
    let xs := (List.range (l + 1)).map x
    Concludes w i c n xs
      (conclude w i (xs.map fun x => summaryJson w.timing x.iteration x.report) (ending xs)
        (xs.foldl (Session.after w i c) e)) := by
  intro xs
  obtain ⟨hexit₀, houtput₀, hcomplaint₀, hdaemon₀, hagent₀⟩ := he
  obtain ⟨hlast, hend, hgood⟩ := ending_of_stop hl hstop
  obtain ⟨hexit, hcomplaint, hdaemon, houtput⟩ := foldl_after (w := w) (i := i) (c := c) xs e
  obtain ⟨hshown, hasked, hcode, hsaid⟩ := conclude_eq (w := w) (i := i)
    (xs.map fun x => summaryJson w.timing x.iteration x.report) (ending xs)
    (xs.foldl (Session.after w i c) e)
  rw [houtput, houtput₀, String.empty_append] at hshown
  refine ⟨?_, fun hjson => ?_, fun hjson hspelled => ?_, ?_, ?_, ?_, ?_⟩
  · rw [hshown]
    cases i.json <;> simp
  · rw [hshown, hjson]
    exact exists_texts hx _
  · rw [hshown, hjson]
    simpa using exists_trees xs hspelled
  · rw [hasked, hdaemon, hdaemon₀, Nat.zero_add]
  · rw [agentRequests_conclude, agentRequests_foldl, hagent₀, List.nil_append]
  · rw [hcode, hexit, hexit₀, hend, ← hgood hbefore]
    cases (x l).error? <;> simp
  · intro y hy
    obtain rfl : x l = y := Option.some.inj (hlast.symm.trans hy)
    rw [hsaid, hend, hcomplaint, hcomplaint₀]
    cases (x l).error? <;> rfl

/-- A command whose configuration is accepted runs its sessions. -/
theorem runWatch_of_check {c' : Config} (hn : 1 ≤ i.iterations)
    (hc : (override i c).check = .ok c') (e : Effect) :
    runWatch w i c e = watchFrom w i c' i.iterations 1 0 [] e ∧ c'.check = .ok c' := by
  have hiter : i.iterations ≠ 0 := by omega
  have hsame : c' = override i c := (Config.check_eq_ok.1 hc).1
  refine ⟨?_, hsame ▸ hc⟩
  unfold runWatch
  simp only [hiter, if_false, hc]

end Effects

/-! ## 3. An update and a step back -/

/-- A reply that lists one running package in a revision. -/
private def runningIn (revision : String) : Http.Reply :=
  .closes (Bytes.ofText ("HTTP/1.1 200 OK\r\n\r\n\x7b\"result\":[\x7b\"name\":\"agent\"," ++
    "\"revision\":\"x" ++ revision ++ "\",\"apps\":[\x7b\"daemon\":\"simple\"," ++
    "\"active\":true\x7d]\x7d]\x7d"))

/-- A daemon whose package is updated behind the first request and set back behind the third. -/
private def updateAndBack : World where
  places _ := .socket
  home := none
  configHome := none
  daemon := [runningIn "1", runningIn "2", runningIn "2", runningIn "1"]
  agent := ⟨⟨"localhost", 30000⟩, some []⟩
  logLevel := none
  colors := false
  interrupts := .never
  timing := ⟨"noon", "noon", "noon", fun _ => "5s", fun _ => "5s", .natural, "1", "no answer"⟩

/-- Three watches are asked for. -/
private def threeTimes : Invocation where
  name := .watch
  config := none
  socket := none
  logJson := false
  json := false
  package := some "agent"
  triggerUrl := none
  interval := none
  timeout := none
  maxPolls := none
  iterations := 3

end RevisionWatch.Command
