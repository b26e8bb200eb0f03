import RevisionWatch.Command.Display
import RevisionWatch.Proofs.Watch.Trace
/-!
# The accounts of a watch

The numbers and packages in a report are kept at different places of the loop: a question is counted
when it is put, a poll when its answer names the package, a sleep before it is slept. Whichever of
its ways out a watch takes, they agree with each other, with the answers, and with the outcome.

* `Recording` -- the invariant of the polling: the baseline, and the answer that is known last;
* `Run.Tally` -- what a run comes to at each of the ways out of the loop, and without a baseline;
* `accounts_of_ends` -- the accounts of every watch that ends on a machine, and the line that is
  shown for it.
-/

namespace RevisionWatch.Watch

variable {s : Settings} {w : Surroundings} {b p : Package} {r r' : Run} {n : Nat} {o : Outcome}

/-! ## 1. What is counted -/

/-- The error is that a question found no package. -/
def Error.isQuery : Error → Bool
  | .daemon _ | .notInstalled _ | .crashed _ => true
  | _ => false

/-- The two revisions that an error compares. -/
def Error.revisions? : Error → Option (Revision × Revision)
  | .regressed before after | .jumped before after | .notRunning before after =>
    some (before, after)
  | _ => none

/-- The two revisions that decided a watch. -/
def Outcome.revisions? : Outcome → Option (Revision × Revision)
  | .succeeded before after => some (before, after)
  | .failed e => e.revisions?
  | _ => none

/-- The outcome is one that a poll decides, so that no sleep follows the last poll. -/
def Outcome.endsAtPoll (o : Outcome) : Bool :=
  o.revisions?.isSome || o == .timedOut

/-- The watch failed because a question behind the telling of the agent found no package. -/
def Report.lostPoll (rep : Report) : Bool :=
  match rep.outcome with
  | .failed e => e.isQuery && rep.trigger.isSome
  | _ => false

/-- The last of the first answers that names the package names `p`. -/
def LastFound (w : Surroundings) (queries : Nat) (p : Package) : Prop :=
  ∃ k < queries, w.answers k = .found p ∧
    ∀ j, k < j → j < queries → (w.answers j).isFound = false

theorem LastFound.of_last (h : w.answers n = .found p) : LastFound w (n + 1) p :=
  ⟨n, Nat.lt_succ_self n, h, fun j hlo hhi => absurd hhi (by omega)⟩

theorem LastFound.lost (h : LastFound w n p) (hn : (w.answers n).isFound = false) :
    LastFound w (n + 1) p := by
  obtain ⟨k, hk, hfound, hlater⟩ := h
  refine ⟨k, Nat.lt_succ_of_lt hk, hfound, fun j hlo hhi => ?_⟩
  by_cases hj : j = n
  · rw [hj]
    exact hn
  · exact hlater j hlo (by omega)

/-- There is only one last package. -/
theorem LastFound.unique {q : Package} (hp : LastFound w n p) (hq : LastFound w n q) : p = q := by
  obtain ⟨k, hk, hfound, hlater⟩ := hp
  obtain ⟨j, hj, hfound', hlater'⟩ := hq
  rcases Nat.lt_trichotomy k j with hlt | heq | hlt
  · have hnot := hlater j hlt hj
    rw [hfound'] at hnot
    cases hnot
  · rw [heq, hfound'] at hfound
    exact (Answer.found.inj hfound).symm
  · have hnot := hlater' k hlt hk
    rw [hfound] at hnot
    cases hnot

/-! ## 2. The accounts -/

/-- **The numbers of a report agree**: the questions are those of the baseline and of the polls, and
    that which found no package; every poll is slept on but the last, if that decides. -/
structure Balanced (rep : Report) : Prop where
  queries : rep.queries = 1 + rep.polls + if rep.lostPoll then 1 else 0
  sleeps : rep.polls = rep.sleeps + if rep.outcome.endsAtPoll then 1 else 0

/-- **The packages of a report agree** with the answers and with the outcome. -/
structure Recorded (s : Settings) (w : Surroundings) (rep : Report) : Prop where
  lost : rep.lostPoll = true ↔ 1 < rep.queries ∧
    ∃ e, (w.answers (rep.queries - 1)).package s = .error e ∧ rep.outcome = .failed e
  lastKnown : ∀ p, rep.lastKnown = some p ↔ LastFound w rep.queries p
  unknown : rep.lastKnown = none ↔ (w.answers 0).isFound = false
  decided : ∀ before after, rep.outcome.revisions? = some (before, after) →
    rep.baseline.map (·.revision) = some before ∧ rep.lastKnown.map (·.revision) = some after
  unmoved : rep.outcome = .timedOut ∨ rep.outcome = .cancelled ∨ rep.lostPoll = true →
    ∃ b p, rep.baseline = some b ∧ rep.lastKnown = some p ∧ p.revision = b.revision

/-- **What belongs together in the numbers and packages of a report.** -/
structure Accounts (s : Settings) (w : Surroundings) (rep : Report) : Prop
    extends Balanced rep, Recorded s w rep

/-- What a run has counted and knows. -/
structure Run.Counts (queries polls sleeps : Nat) (baseline lastKnown : Option Package)
    (r : Run) : Prop where
  queries : r.queries = queries
  polls : r.polls = polls
  sleeps : r.sleeps = sleeps
  baseline : r.baseline = baseline
  lastKnown : r.lastKnown = lastKnown

/-- **What a run comes to at its end**: a constructor for a baseline that is not to be had, one for
    being stopped between two polls, and one for each thing that a last question can show. -/
inductive Run.Tally (s : Settings) (w : Surroundings) : Outcome → Run → Prop where
  | baseless {r : Run} (e : Error) (ha : (w.answers 0).package s = .error e)
      (hc : r.Counts 1 0 0 none none) (ht : r.trigger = none) : Tally s w (.failed e) r
  | stopped {r : Run} (n : Nat) (b p : Package) (hb : w.answers 0 = .found b)
      (ha : w.answers n = .found p) (hsame : p.revision = b.revision)
      (hc : r.Counts (n + 1) n n (some b) (some p)) : Tally s w .cancelled r
  | lost {r : Run} (n : Nat) (b p : Package) (e : Error) (hb : w.answers 0 = .found b)
      (ha : w.answers n = .found p) (hsame : p.revision = b.revision)
      (he : (w.answers (n + 1)).package s = .error e) (ht : r.trigger.isSome = true)
      (hc : r.Counts (n + 2) n n (some b) (some p)) : Tally s w (.failed e) r
  | ranOut {r : Run} (n : Nat) (b p : Package) (hb : w.answers 0 = .found b)
      (ha : w.answers (n + 1) = .found p) (hsame : p.revision = b.revision)
      (hc : r.Counts (n + 2) (n + 1) n (some b) (some p)) : Tally s w .timedOut r
  | decided {r : Run} (n : Nat) (b p : Package) {o : Outcome} (hb : w.answers 0 = .found b)
      (ha : w.answers (n + 1) = .found p) (hv : o.revisions? = some (b.revision, p.revision))
      (hc : r.Counts (n + 2) (n + 1) n (some b) (some p)) : Tally s w o r

/-! ## 3. From what a run comes to -/

theorem isQuery_of_package {a : Answer} {e : Error} (h : a.package s = .error e) :
    e.isQuery = true := by
  cases a with
  | found p => cases h
  | absent => cases h; rfl
  | refused c => cases h; rfl
  | crashed report => cases h; rfl

/-- A question that finds no package compares no revisions. -/
theorem revisions_of_isQuery {e : Error} (h : e.isQuery = true) : e.revisions? = none := by
  cases e <;> first | rfl | cases h

/-- No sleep is missing behind a question that finds no package. -/
theorem endsAtPoll_of_isQuery {e : Error} (h : e.isQuery = true) :
    (Outcome.failed e).endsAtPoll = false := by
  have hnone : (Outcome.failed e).revisions? = none := revisions_of_isQuery h
  rw [Outcome.endsAtPoll, hnone]
  rfl

theorem Run.lastKnown_report (s : Settings) (o : Outcome) (r : Run) :
    (r.report s o).lastKnown = r.lastKnown := by
  cases o <;> rfl

theorem Run.lostPoll_failed (s : Settings) (e : Error) (r : Run) :
    (r.report s (.failed e)).lostPoll = (e.isQuery && r.trigger.isSome) :=
  rfl

/-- A watch that lost a poll has compared no revisions. -/
theorem Run.revisions_of_lostPoll (h : (r.report s o).lostPoll = true) : o.revisions? = none := by
  cases o with
  | failed e =>
    rw [r.lostPoll_failed s e] at h
    have hquery := (Bool.and_eq_true_iff.1 h).1
    exact revisions_of_isQuery hquery
  | _ => cases h

/-- The accounts of a watch that has a baseline, from what its run has counted. -/
theorem Run.Counts.accounts {q k l : Nat} (hc : r.Counts q k l (some b) (some p))
    (hb : w.answers 0 = .found b) (hlast : LastFound w q p)
    (hq : q = 1 + k + if (r.report s o).lostPoll then 1 else 0)
    (hk : k = l + if o.endsAtPoll then 1 else 0)
    (hlost : (r.report s o).lostPoll = true ↔ 1 < q ∧
      ∃ e, (w.answers (q - 1)).package s = .error e ∧ o = .failed e)
    (hv : ∀ v, o.revisions? = some v → v = (b.revision, p.revision))
    (hsame : o.revisions? = none → p.revision = b.revision) :
    Accounts s w (r.report s o) := by
  obtain ⟨houtcome, hqueries, hpolls, hsleeps, -, -, -⟩ := r.report_fields s o
  have hknown : (r.report s o).lastKnown = some p := by
    rw [r.lastKnown_report s o, hc.lastKnown]
  have hbaseline : (r.report s o).baseline = some b := by
    rw [r.baseline_report s o, hc.baseline]
  rw [hc.queries] at hqueries
  rw [hc.polls] at hpolls
  rw [hc.sleeps] at hsleeps
  refine {
    queries := by rw [hqueries, hpolls]; exact hq
    sleeps := by rw [hpolls, hsleeps, houtcome]; exact hk
    lost := by rw [hqueries, houtcome]; exact hlost
    lastKnown := fun p' => ?_
    unknown := ?_
    decided := fun before after h => ?_
    unmoved := fun h => ⟨b, p, hbaseline, hknown, hsame ?_⟩ }
  · rw [hknown, hqueries]
    refine ⟨fun h => ?_, fun h => ?_⟩
    · rw [← Option.some.inj h]
      exact hlast
    · rw [hlast.unique h]
  · rw [hknown, hb]
    exact iff_of_false (Option.some_ne_none p) (Bool.true_eq_false.mp ·)
  · rw [houtcome] at h
    obtain ⟨rfl, rfl⟩ := Prod.mk.inj (hv _ h)
    rw [hbaseline, hknown]
    exact ⟨rfl, rfl⟩
  · rw [houtcome] at h
    rcases h with h | h | h
    · rw [h]
      rfl
    · rw [h]
      rfl
    · exact Run.revisions_of_lostPoll h

/-- **Every way out of the loop keeps the accounts.** -/
theorem Run.Tally.accounts (h : Run.Tally s w o r) : Accounts s w (r.report s o) := by
  cases h with
  | baseless e ha hc ht =>
    obtain ⟨houtcome, hqueries, hpolls, hsleeps, -, -, -⟩ := r.report_fields s (.failed e)
    have hnot : (r.report s (.failed e)).lostPoll = false := by
      rw [r.lostPoll_failed s e, ht]
      exact Bool.and_false _
    have hknown : (r.report s (.failed e)).lastKnown = none := by
      rw [r.lastKnown_report s (.failed e), hc.lastKnown]
    have hunfound := isFound_eq_false ha
    have hquery := isQuery_of_package ha
    have hnone : (Outcome.failed e).revisions? = none := revisions_of_isQuery hquery
    rw [hc.queries] at hqueries
    rw [hc.polls] at hpolls
    rw [hc.sleeps] at hsleeps
    refine {
      queries := by rw [hqueries, hpolls, hnot]; rfl
      sleeps := by
        rw [hpolls, hsleeps, houtcome, endsAtPoll_of_isQuery hquery]
        rfl
      lost := by
        rw [hnot, hqueries]
        exact iff_of_false Bool.false_ne_true fun h => Nat.lt_irrefl 1 h.1
      lastKnown := fun p => ?_
      unknown := by rw [hknown]; exact iff_of_true rfl hunfound
      decided := fun before after h => ?_
      unmoved := fun h => ?_ }
    · rw [hknown, hqueries]
      refine iff_of_false (fun h => nomatch h) ?_
      rintro ⟨k, hk, hfound, -⟩
      rw [Nat.lt_one_iff.1 hk] at hfound
      rw [hfound] at hunfound
      cases hunfound
    · rw [houtcome, hnone] at h
      cases h
    · rw [houtcome, hnot] at h
      rcases h with h | h | h <;> cases h
  | stopped n b p hb ha hsame hc =>
    have hnot : (r.report s .cancelled).lostPoll = false := rfl
    refine hc.accounts hb (.of_last ha) ?_ rfl ?_ (fun v h => nomatch h) fun _ => hsame
    · rw [hnot]
      exact Nat.add_comm n 1
    · rw [hnot]
      exact iff_of_false Bool.false_ne_true fun ⟨_, _, _, h⟩ => nomatch h
  | lost n b p e hb ha hsame he ht hc =>
    have hquery := isQuery_of_package he
    have hlost : (r.report s (.failed e)).lostPoll = true := by
      rw [r.lostPoll_failed s e, hquery, ht]
      rfl
    have hnone : (Outcome.failed e).revisions? = none := revisions_of_isQuery hquery
    refine hc.accounts hb ((LastFound.of_last ha).lost (isFound_eq_false he)) ?_ ?_ ?_ ?_
      fun _ => hsame
    · rw [hlost]
      exact congrArg (· + 1) (Nat.add_comm n 1)
    · rw [endsAtPoll_of_isQuery hquery]
      rfl
    · rw [hlost]
      exact iff_of_true rfl ⟨by omega, e, he, rfl⟩
    · intro v h
      rw [hnone] at h
      cases h
  | ranOut n b p hb ha hsame hc =>
    have hnot : (r.report s .timedOut).lostPoll = false := rfl
    refine hc.accounts hb (.of_last ha) ?_ rfl ?_ (fun v h => nomatch h) fun _ => hsame
    · rw [hnot]
      exact Nat.add_comm (n + 1) 1
    · rw [hnot]
      exact iff_of_false Bool.false_ne_true fun ⟨_, _, _, h⟩ => nomatch h
  | decided n b p hb ha hv hc =>
    have hnot : (r.report s o).lostPoll = false := Bool.eq_false_iff.2 fun h => by
      rw [Run.revisions_of_lostPoll h] at hv
      cases hv
    have hends : o.endsAtPoll = true := by
      rw [Outcome.endsAtPoll, hv]
      rfl
    refine hc.accounts hb (.of_last ha) ?_ ?_ ?_ ?_ ?_
    · rw [hnot]
      exact Nat.add_comm (n + 1) 1
    · rw [hends]
      rfl
    · rw [hnot]
      refine iff_of_false Bool.false_ne_true ?_
      rintro ⟨-, e, he, -⟩
      rw [show n + 2 - 1 = n + 1 from rfl, ha] at he
      cases he
    · intro v h
      rw [hv] at h
      exact (Option.some.inj h).symm
    · intro h
      rw [hv] at h
      cases h

/-! ## 4. Rounds -/

/-- **A run in front of a poll**, `n` others being slept on, with the baseline and what is known
    last. -/
structure Recording (s : Settings) (w : Surroundings) (b : Package) (n : Nat) (r : Run) : Prop
    extends Paced s w n r where
  baseline : r.baseline = some b
  known : ∃ p, w.answers n = .found p ∧ r.lastKnown = some p ∧ p.revision = b.revision

theorem Recording.start (ha : w.answers 0 = .found b) :
    Recording s w b 0 (((Run.start w).grounded w b).told w) where
  toPaced := .start s w b
  baseline := rfl
  known := ⟨b, ha, rfl, rfl⟩

theorem Recording.step (h : Recording s w b n r) (hr : Run.Round s w b r none r') :
    Recording s w b (n + 1) r' where
  toPaced := h.toPaced.step hr
  baseline := hr.baseline.trans h.baseline
  known := by
    cases hr with
    | slept p hask ha hv hm ht hs =>
      rw [h.queries] at ha
      exact ⟨p, package_ok ha, (Run.sleptOn s w p r).lastKnown, verdict_pending_iff.1 hv⟩

theorem Recording.reached {r₀ : Run} (h : Recording s w b n r₀) (hr : Run.Reached s w b r₀ r) :
    ∃ m, Recording s w b m r :=
  hr.counted h fun _ _ _ hm hs => hm.step hs

/-- A verdict that fails the watch is about the two revisions that it compares. -/
theorem revisions_of_wrong {e : Error} (h : verdict b p = .wrong e) :
    e.revisions? = some (b.revision, p.revision) := by
  rcases revision_cases b p with hlt | heq | hstep | hjump
  · rw [verdict_smaller hlt] at h
    cases h
    rfl
  · rw [verdict_same heq] at h
    cases h
  · rw [verdict_next hstep] at h
    split at h <;> cases h
    rfl
  · rw [verdict_beyond hjump] at h
    cases h
    rfl

/-- What a poll counts whose answer decides. -/
theorem Recording.counts_polled (h : Recording s w b n r) (p : Package) :
    (r.polled w p).Counts (n + 2) (n + 1) n (some b) (some p) where
  queries := congrArg (· + 1) h.queries
  polls := congrArg (· + 1) h.polls
  sleeps := h.sleeps
  baseline := h.baseline
  lastKnown := rfl

theorem Recording.counts_unchanged (h : Recording s w b n r) (p : Package) :
    (r.unchanged w p).Counts (n + 2) (n + 1) n (some b) (some p) := by
  obtain ⟨-, hqueries, hpolls, hsleeps, hbaseline, hlast, -, -⟩ := r.unchanged_fields w p
  exact ⟨by rw [hqueries, h.queries], by rw [hpolls, h.polls], hsleeps.trans h.sleeps,
    hbaseline.trans h.baseline, hlast⟩

theorem Run.Counts.note {q k l : Nat} {x y : Option Package} (h : r.Counts q k l x y)
    (e : Event) : (r.note e).Counts q k l x y :=
  ⟨h.queries, h.polls, h.sleeps, h.baseline, h.lastKnown⟩

/-- **The last round of a watch leaves one of the tallies.** -/
theorem Recording.tally (h : Recording s w b n r) (hb : w.answers 0 = .found b)
    (hr : Run.Round s w b r (some o) r') : Run.Tally s w o r' := by
  obtain ⟨q, hq, hlast, hsame⟩ := h.known
  cases hr with
  | stopped hask =>
    exact .stopped n b q hb hq hsame ⟨h.queries, h.polls, h.sleeps, h.baseline, hlast⟩
  | unanswered e hask ha =>
    have ht : (r.asked w).trigger.isSome = true := by
      rw [show (r.asked w).trigger = r.trigger from rfl, h.trigger]
      rfl
    rw [h.queries] at ha
    exact .lost n b q e hb hq hsame ha ht
      ⟨congrArg (· + 1) h.queries, h.polls, h.sleeps, h.baseline, hlast⟩
  | done p hask ha hv =>
    rw [h.queries] at ha
    exact .decided n b p hb (package_ok ha) rfl ((h.counts_polled p).note _)
  | wrong p e hask ha hv =>
    rw [h.queries] at ha
    exact .decided n b p hb (package_ok ha) (revisions_of_wrong hv) (h.counts_polled p)
  | pollsUsedUp p hask ha hv hm =>
    rw [h.queries] at ha
    exact .ranOut n b p hb (package_ok ha) (verdict_pending_iff.1 hv)
      ((h.counts_unchanged p).note _)
  | timeUsedUp p hask ha hv hm ht =>
    rw [h.queries] at ha
    exact .ranOut n b p hb (package_ok ha) (verdict_pending_iff.1 hv)
      ((h.counts_unchanged p).note _)
  | woken p hask ha hv hm ht hs =>
    have hon := Run.sleptOn s w p r
    rw [h.queries] at ha
    exact .stopped (n + 1) b p hb (package_ok ha) (verdict_pending_iff.1 hv)
      ⟨by rw [hon.queries, h.queries], by rw [hon.polls, h.polls], by rw [hon.sleeps, h.sleeps],
        hon.baseline.trans h.baseline, hon.lastKnown⟩

/-- A watch that ends leaves one of the tallies, whether it has told the agent or not. -/
theorem Run.Course.tally (h : Run.Course s w o r) : Run.Tally s w o r := by
  cases h with
  | unanswered e ha => exact .baseless e ha ⟨rfl, rfl, rfl, rfl, rfl⟩ rfl
  | stopped p ha hask =>
    have hp := package_ok ha
    exact .stopped 0 p p hp hp rfl ⟨rfl, rfl, rfl, rfl, rfl⟩
  | polled p ha hask o r₁ r hr he =>
    have hp := package_ok ha
    obtain ⟨n, hn⟩ := (Recording.start hp).reached hr
    exact hn.tally hp he

/-! ## 5. The whole watch -/

/-- The line that is shown for a success between two revisions. -/
def successLine (colors : Bool) (t : Command.Timing) (iteration : Nat) (rep : Report)
    (before after : Revision) : String :=
  Command.paint colors "1;32" "✓" ++ " [" ++ t.moment ++ "] iteration " ++
    Decimal.text iteration ++ " · " ++ rep.package ++ ": revision " ++ before.text ++ " → " ++
    after.text ++ " in " ++ t.took rep.elapsedMillis ++ " (" ++ Decimal.text rep.polls ++
    " polls)"

/-- What is shown for a success has the revisions of the baseline and of what is known last. -/
theorem summaryLines_of_succeeded {rep : Report} {before after : Revision}
    (ho : rep.outcome = .succeeded before after)
    (hb : rep.baseline.map (·.revision) = some before)
    (hl : rep.lastKnown.map (·.revision) = some after) (colors : Bool) (t : Command.Timing)
    (iteration : Nat) :
    ∃ more, Command.summaryLines colors t iteration rep =
      successLine colors t iteration rep before after ++ "\n" ++ more := by
  obtain ⟨b, hbaseline, rfl⟩ := Option.map_eq_some_iff.1 hb
  obtain ⟨p, hknown, rfl⟩ := Option.map_eq_some_iff.1 hl
  apply Exists.intro
  unfold Command.summaryLines successLine
  simp only [ho, hbaseline, hknown, String.append_assoc]
  rfl

/-- The accounts of a watch that is counted exactly. -/
theorem accounts_of_run? {fuel : Nat} {rep : Report} (h : run? s w fuel = some rep) :
    Accounts s w rep := by
  obtain ⟨o, r, hc, rfl⟩ := run?_eq_some h
  exact hc.tally.accounts

/-- The counters have no part in what is recorded. -/
theorem Recorded.shown {rep : Report} (h : Recorded s w rep) : Recorded s w rep.shown :=
  ⟨h.lost, h.lastKnown, h.unknown, h.decided, h.unmoved⟩

/-- **The accounts of a watch.** If a watch ends on a machine, then whatever it was told and
    answered, whatever came of telling the agent, and whenever it was asked to stop, its packages
    agree with the answers and with its outcome, and the line for a success shows the two revisions
    of the outcome. Its numbers agree with each other if no counter can begin again at zero: in a
    checked program, with a budget of polls, and wherever the polls are fewer than a word can
    count. -/
theorem accounts_of_ends (m : Machine) (s : Settings) (w : Surroundings) (fuel : Nat)
    (rep : Report) (hs : s.InWords) (h : m.run? s w fuel = some (.ok rep)) :
    (m.checked = true ∨ s.maxPolls.isSome = true ∨
        rep.queries ≤ Decimal.word32 + (if rep.lostPoll then 1 else 0) → Balanced rep) ∧
      Recorded s w rep ∧
      ∀ before after, rep.outcome = .succeeded before after → ∀ colors t iteration,
        ∃ more, Command.summaryLines colors t iteration rep =
          successLine colors t iteration rep before after ++ "\n" ++ more := by
  obtain ⟨rep', hrun, hb, rfl⟩ := (Machine.run?_eq_ok_iff hs).1 h
  have haccounts := accounts_of_run? hrun
  have hrecorded := haccounts.toRecorded.shown
  refine ⟨fun hcounted => ?_, hrecorded, fun before after ho colors t iteration => ?_⟩
  · have hpolls : rep'.polls < Decimal.word32 := by
      rcases hcounted with hchecked | hmax | hfew
      · exact hb.polls hchecked
      · exact polls_lt_of_maxPolls hs hmax hrun
      · have hfew' : rep'.queries ≤ Decimal.word32 + if rep'.lostPoll then 1 else 0 := hfew
        have hqueries := haccounts.queries
        omega
    rw [shown_of_run? hrun hpolls]
    exact haccounts.toBalanced
  · have hrevisions : rep'.shown.outcome.revisions? = some (before, after) := by
      rw [ho]
      rfl
    obtain ⟨hbaseline, hlast⟩ := hrecorded.decided before after hrevisions
    exact summaryLines_of_succeeded ho hbaseline hlast colors t iteration

/-- The agent in two revisions, running. -/
private def agentBefore : Package :=
  ⟨"agent", ⟨61, by decide⟩, none, .service true⟩

private def agentAfter : Package :=
  ⟨"agent", ⟨62, by decide⟩, none, .service true⟩

/-- The revision is seen once more before the next is there. -/
private def updatedAtSecondPoll : Surroundings where
  answers n := .found (if n < 2 then agentBefore else agentAfter)
  firing := .outcome (.accepted 202)

/-- What the watch comes to. -/
private def updateReport : Report :=
  (run? ⟨"agent", 5, 60, none⟩ updatedAtSecondPoll 2).getD default

/-- A plain way to write moments and durations. -/
private def plainTiming : Command.Timing where
  moment := "noon"
  stamp := "noon"
  logMoment := "noon"
  took n := Decimal.text n ++ "ms"
  waited n := Decimal.text n ++ "ms"
  millis := .natural
  task := "1"
  unreachable := "no answer"

theorem accounts_at_second_poll :
    let s : Settings := ⟨"agent", 5, 60, none⟩
    s.InWords ∧ Machine.usual.run? s updatedAtSecondPoll 2 = some (.ok updateReport) ∧
      updateReport.queries = 3 ∧ updateReport.polls = 2 ∧ updateReport.sleeps = 1 ∧
      Balanced updateReport ∧ Recorded s updatedAtSecondPoll updateReport ∧
      ∃ more, Command.summaryLines false plainTiming 1 updateReport =
        "✓ [noon] iteration 1 · agent: revision 61 → 62 in 5ms (2 polls)" ++ "\n" ++ more := by
  intro s
  have hs : s.InWords := fun _ hmax => nomatch hmax
  have hexact : run? s updatedAtSecondPoll 2 = some updateReport := by decide +kernel
  have hrun : Machine.usual.run? s updatedAtSecondPoll 2 = some (.ok updateReport) :=
    Machine.run?_of_carries hs hexact ⟨⟨by decide +kernel, by decide +kernel⟩, by decide +kernel⟩
  obtain ⟨hbalanced, hrecorded, hline⟩ := accounts_of_ends .usual s _ 2 updateReport hs hrun
  have ho : updateReport.outcome = .succeeded agentBefore.revision agentAfter.revision := by
    decide +kernel
  have hfirst : successLine false plainTiming 1 updateReport agentBefore.revision
      agentAfter.revision = "✓ [noon] iteration 1 · agent: revision 61 → 62 in 5ms (2 polls)" := by
    decide +kernel
  refine ⟨hs, hrun, by decide +kernel, by decide +kernel, by decide +kernel,
    hbalanced (.inl rfl), hrecorded, ?_⟩
  rw [← hfirst]
  exact hline _ _ ho false plainTiming 1

end RevisionWatch.Watch
