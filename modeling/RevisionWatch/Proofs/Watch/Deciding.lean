import RevisionWatch.Proofs.Watch.Quiet
import RevisionWatch.Proofs.Watch.Words
import Mathlib.Order.Bounds.Basic
import Mathlib.Data.Nat.Find
/-!
# The first answer that decides

A watch that sleeps between its polls and that nobody stops is decided by a single answer. Polls are
counted from one; the poll before which `n` others were made is put at the time `n · interval`, or
at the deadline if that is earlier, since the last sleep is cut short there.

* `Deciding` -- the poll of a number ends the watch: its answer is not a package of the baseline's
  revision, or the polls or the time are used up with it;
* `Answer.decides` -- what an answer comes to by itself, numbers compared as integers, so that the
  last revision has no next one;
* `Waiting` -- the invariant of the polling: how many polls there were, at which time the run is,
  and that nothing asks it to stop;
* `run_first_deciding` -- the first deciding poll is made, no other is made after it, and its answer
  alone is the outcome.
-/

namespace RevisionWatch.Watch

variable {s : Settings} {w : Surroundings} {b p : Package} {r : Run} {n : Nat}

/-! ## 1. What an answer decides -/

/-- The outcome that an answer decides by itself for a watch with a baseline of revision `b`. -/
def Answer.decides (s : Settings) (b : Revision) : Answer → Outcome
  | .absent => .failed (.notInstalled s.package)
  | .refused e => .failed (.daemon e)
  | .crashed report => .failed (.crashed report)
  | .found p =>
    if p.revision.number < b.number then .failed (.regressed b p.revision)
    else if b.number + 1 < p.revision.number then .failed (.jumped b p.revision)
    else if p.revision.number = b.number + 1 then
      if p.service = .service true then .succeeded b p.revision
      else .failed (.notRunning b p.revision)
    else .timedOut

/-- An answer that does not name the package fails the watch, whatever the baseline. -/
theorem decides_of_error {a : Answer} {e : Error} (h : a.package s = .error e) (b : Revision) :
    a.decides s b = .failed e := by
  cases a with
  | found p => cases h
  | absent => cases h; rfl
  | refused e => cases h; rfl
  | crashed report => cases h; rfl

/-- An answer does not stop a watch. -/
theorem decides_ne_cancelled (a : Answer) (s : Settings) (b : Revision) :
    a.decides s b ≠ .cancelled := by
  cases a with
  | found p =>
    dsimp only [Answer.decides]
    split_ifs <;> exact fun h => nomatch h
  | _ => exact fun h => nomatch h

theorem package_ok {a : Answer} (h : a.package s = .ok p) : a = .found p := by
  cases a with
  | found q => cases h; rfl
  | absent => cases h
  | refused e => cases h
  | crashed report => cases h

theorem isRunning_iff (p : Package) : p.isRunning = true ↔ p.service = .service true := by
  unfold Package.isRunning
  split
  · simp_all
  · rename_i h
    simp only [Bool.false_eq_true, false_iff]
    exact h

/-! A poll has one of four revisions: the same, a smaller one, the next, or one beyond. -/

theorem verdict_same (h : p.revision = b.revision) : verdict b p = .pending := by
  rw [verdict, if_pos h]

theorem verdict_smaller (h : p.revision.number < b.revision.number) :
    verdict b p = .wrong (.regressed b.revision p.revision) := by
  have hne : p.revision ≠ b.revision := fun he => by rw [he] at h; omega
  rw [verdict, if_neg hne, if_pos (show p.revision < b.revision from h)]

theorem verdict_next (h : p.revision.number = b.revision.number + 1) :
    verdict b p =
      if p.isRunning then .done else .wrong (.notRunning b.revision p.revision) := by
  have hfit := p.revision.fits
  have hne : p.revision ≠ b.revision := fun he => by rw [he] at h; omega
  have hlt : ¬ p.revision < b.revision := fun hl => by
    have hl' : p.revision.number < b.revision.number := hl
    omega
  have hn : p.revision = b.revision.next := Revision.ext_number (by
    rw [b.revision.next_number, if_pos (by omega), h])
  rw [verdict, if_neg hne, if_neg hlt, if_neg (not_not_intro hn)]

theorem verdict_beyond (h : b.revision.number + 1 < p.revision.number) :
    verdict b p = .wrong (.jumped b.revision p.revision) := by
  have hne : p.revision ≠ b.revision := fun he => by rw [he] at h; omega
  have hlt : ¬ p.revision < b.revision := fun hl => by
    have hl' : p.revision.number < b.revision.number := hl
    omega
  -- the last revision has no next one, so the next number may be the same number
  have hn : p.revision ≠ b.revision.next := fun he => by
    have hnum := congrArg Revision.number he
    rw [b.revision.next_number] at hnum
    split at hnum <;> omega
  rw [verdict, if_neg hne, if_neg hlt, if_pos hn]

/-- The four places of a poll's revision beside the baseline's. -/
theorem revision_cases (b p : Package) :
    p.revision.number < b.revision.number ∨ p.revision = b.revision ∨
      p.revision.number = b.revision.number + 1 ∨
      b.revision.number + 1 < p.revision.number := by
  by_cases heq : p.revision.number = b.revision.number
  · exact .inr (.inl (Revision.ext_number heq))
  · omega

/-- **The verdict on a poll is what its answer decides**; an unchanged revision decides nothing but
    that the watch has run out. -/
theorem decides_found (s : Settings) (b p : Package) :
    (Answer.found p).decides s b.revision =
      match verdict b p with
      | .done => .succeeded b.revision p.revision
      | .wrong e => .failed e
      | .pending => .timedOut := by
  dsimp only [Answer.decides]
  rcases revision_cases b p with hlt | heq | hstep | hjump
  · rw [verdict_smaller hlt, if_pos hlt]
  · rw [verdict_same heq, heq, if_neg (by omega), if_neg (by omega), if_neg (by omega)]
  · rw [verdict_next hstep, if_neg (by omega), if_neg (by omega), if_pos hstep]
    simp only [← isRunning_iff]
    cases p.isRunning <;> rfl
  · rw [verdict_beyond hjump, if_neg (by omega), if_pos hjump]

theorem verdict_pending_iff : verdict b p = .pending ↔ p.revision = b.revision := by
  refine ⟨fun h => ?_, verdict_same⟩
  rcases revision_cases b p with hlt | heq | hstep | hjump
  · rw [verdict_smaller hlt] at h
    cases h
  · exact heq
  · rw [verdict_next hstep] at h
    split at h <;> cases h
  · rw [verdict_beyond hjump] at h
    cases h

theorem verdict_done_iff : verdict b p = .done ↔
    p.revision.number = b.revision.number + 1 ∧ p.isRunning = true := by
  constructor
  · intro h
    rcases revision_cases b p with hlt | heq | hstep | hjump
    · rw [verdict_smaller hlt] at h
      cases h
    · rw [verdict_same heq] at h
      cases h
    · rw [verdict_next hstep] at h
      split at h
      · rename_i hrunning
        exact ⟨hstep, hrunning⟩
      · cases h
    · rw [verdict_beyond hjump] at h
      cases h
  · rintro ⟨hstep, hrunning⟩
    rw [verdict_next hstep, if_pos hrunning]

/-! ## 2. The poll that ends a watch -/

/-- The poll of number `k` ends a watch with a baseline of revision `b`. -/
def Deciding (s : Settings) (w : Surroundings) (b : Revision) (k : Nat) : Prop :=
  (∀ p, w.answers k = .found p → p.revision ≠ b) ∨
    (∃ m, s.maxPolls = some m ∧ m ≤ k) ∨
    s.timeoutMillis ≤ (k - 1) * s.intervalMillis

/-- **Some poll ends the watch**: at the latest the first that is put at the deadline. -/
theorem exists_first_deciding (w : Surroundings) (b : Revision) (hI : 0 < s.intervalMillis) :
    ∃ k, IsLeast {k | 1 ≤ k ∧ Deciding s w b k} k ∧ k ≤ s.pollsInTime := by
  classical
  have hlast : 1 ≤ s.pollsInTime ∧ Deciding s w b s.pollsInTime :=
    ⟨Nat.le_add_left 1 _, .inr (.inr (timeout_le_pollsInTime hI))⟩
  have hex : ∃ k, 1 ≤ k ∧ Deciding s w b k := ⟨_, hlast⟩
  exact ⟨Nat.find hex, ⟨Nat.find_spec hex, fun k hk => Nat.find_min' hex hk⟩,
    Nat.find_min' hex hlast⟩

/-- No poll in front of the first that decides does. -/
theorem not_deciding_of_lt {K : Nat} {v : Revision}
    (hK : IsLeast {k | 1 ≤ k ∧ Deciding s w v k} K) (hn : n < K) :
    ∀ j, 1 ≤ j → j ≤ n → ¬ Deciding s w v j := by
  intro j hpos hj hd
  have hle := hK.2 ⟨hpos, hd⟩
  omega

/-- The answer names the package. -/
def Answer.isFound : Answer → Bool
  | .found _ => true
  | _ => false

theorem found_of_isFound {a : Answer} (h : a.isFound = true) : ∃ p, a = .found p := by
  cases a with
  | found p => exact ⟨p, rfl⟩
  | _ => cases h

theorem isFound_eq_false {a : Answer} {e : Error} (h : a.package s = .error e) :
    a.isFound = false := by
  cases a with
  | found p => cases h
  | _ => rfl

/-- **What is known of a watch that its poll of number `k` has ended.** -/
structure DecidedAt (s : Settings) (w : Surroundings) (b : Revision) (k : Nat) (rep : Report) :
    Prop where
  outcome : rep.outcome = (w.answers k).decides s b
  queries : rep.queries = k + 1
  polls : rep.polls = if (w.answers k).isFound then k else k - 1
  sleeps : rep.sleeps = k - 1
  elapsed : rep.elapsedMillis = min ((k - 1) * s.intervalMillis) s.timeoutMillis
  trigger : rep.trigger = some w.firing.toOutcome
  firings : rep.firings = 1

/-- A run in front of a poll that nobody will stop: `n` others were made, and each was slept on. -/
structure Waiting (s : Settings) (w : Surroundings) (n : Nat) (r : Run) : Prop
    extends Paced s w n r where
  calm : r.Calm

theorem Waiting.start (hq : w.Quiet) (b : Package) :
    Waiting s w 0 (((Run.start w).grounded w b).told w) where
  toPaced := .start s w b
  calm := ((Run.Calm.start hq).grounded hq b).told hq

/-- **A poll that does not decide** names a package of the baseline's revision, and there are polls
    and time left behind it. -/
theorem Paced.undecided (h : Paced s w n r) (hd : ¬ Deciding s w b.revision (n + 1)) :
    ∃ p, (w.answers r.queries).package s = .ok p ∧ verdict b p = .pending ∧
      ¬ Run.PollsUsedUp s (r.polls + 1) ∧ r.clock < s.timeoutMillis := by
  obtain ⟨hfound, hpolls, htime⟩ := not_or.1 hd |>.imp_right not_or.1
  simp only [not_forall, not_not] at hfound
  obtain ⟨p, ha, hrev⟩ := hfound
  rw [Nat.add_sub_cancel, not_le] at htime
  refine ⟨p, ?_, verdict_same hrev, ?_, ?_⟩
  · rw [h.queries, ha]
    rfl
  · rw [h.polls]
    exact hpolls
  · rw [h.clock]
    omega

/-- A poll that does not decide is slept on, to the next interval or to the deadline. -/
theorem Waiting.goesOn (hq : w.Quiet) (h : Waiting s w n r)
    (hd : ¬ Deciding s w b.revision (n + 1)) :
    ∃ r', Run.Round s w b r none r' ∧ Waiting s w (n + 1) r' := by
  obtain ⟨p, ha, hv, hm, ht⟩ := h.toPaced.undecided hd
  have hround : Run.Round s w b r none _ :=
    .slept p h.calm.isAsked ha hv hm ht ((h.calm.unchanged hq p).sleep hq s).1
  exact ⟨_, hround, h.toPaced.step hround, h.calm.round hq hround⟩

/-- What a deciding poll adds to a run in front of it. -/
structure Run.EndedBy (a : Answer) (r r' : Run) : Prop where
  queries : r'.queries = r.queries + 1
  polls : r'.polls = if a.isFound then r.polls + 1 else r.polls
  sleeps : r'.sleeps = r.sleeps
  clock : r'.clock = r.clock
  trigger : r'.trigger = r.trigger
  firings : r'.firings = r.firings

theorem DecidedAt.of_endedBy {r' : Run} (h : Paced s w n r)
    (he : Run.EndedBy (w.answers (n + 1)) r r') :
    DecidedAt s w b.revision (n + 1)
      (r'.report s ((w.answers (n + 1)).decides s b.revision)) where
  outcome := (r'.report_fields s _).1
  queries := by simp [he.queries, h.queries]
  polls := by simp [he.polls, h.polls]
  sleeps := by simp [he.sleeps, h.sleeps]
  elapsed := by simp [he.clock, h.clock]
  trigger := by simp [he.trigger, h.trigger]
  firings := by simp [he.firings, h.firings]

theorem Run.endedBy_polled (w : Surroundings) (p : Package) (r : Run) :
    Run.EndedBy (.found p) r (r.polled w p) :=
  ⟨rfl, rfl, rfl, rfl, rfl, Run.firings_asked w r⟩

theorem Run.endedBy_unchanged (w : Surroundings) (p : Package) (r : Run) :
    Run.EndedBy (.found p) r (r.unchanged w p) := by
  obtain ⟨hclock, hqueries, hpolls, hsleeps, -, -, htrigger, hfirings⟩ := r.unchanged_fields w p
  exact ⟨hqueries, hpolls, hsleeps, hclock, htrigger, hfirings⟩

/-- A last event that is no firing changes nothing of this. -/
theorem Run.EndedBy.note {a : Answer} {r' : Run} (h : Run.EndedBy a r r') {e : Event}
    (he : e.isFired = false) : Run.EndedBy a r (r'.note e) := by
  refine ⟨h.queries, h.polls, h.sleeps, h.clock, h.trigger, ?_⟩
  rw [Run.firings_note, he]
  exact h.firings

/-- **A poll that decides ends the watch**, and its answer alone is the outcome. -/
theorem Paced.ends (h : Paced s w n r) (hask : r.isAsked = false)
    (hd : Deciding s w b.revision (n + 1)) :
    ∃ r', Run.Round s w b r (some ((w.answers (n + 1)).decides s b.revision)) r' ∧
      Run.EndedBy (w.answers (n + 1)) r r' := by
  cases hans : (w.answers (n + 1)).package s with
  | error e =>
    rw [decides_of_error hans]
    rw [← h.queries] at hans ⊢
    refine ⟨_, .unanswered e hask hans, rfl, ?_, rfl, rfl, rfl, Run.firings_asked w r⟩
    rw [isFound_eq_false hans]
    rfl
  | ok p =>
    have hfound := package_ok hans
    rw [hfound, decides_found]
    rw [← h.queries] at hans
    cases hv : verdict b p with
    | done => exact ⟨_, .done p hask hans hv, (r.endedBy_polled w p).note rfl⟩
    | wrong e => exact ⟨_, .wrong p e hask hans hv, r.endedBy_polled w p⟩
    | pending =>
      by_cases hm : Run.PollsUsedUp s (r.polls + 1)
      · exact ⟨_, .pollsUsedUp p hask hans hv hm, (r.endedBy_unchanged w p).note rfl⟩
      · refine ⟨_, .timeUsedUp p hask hans hv hm ?_, (r.endedBy_unchanged w p).note rfl⟩
        rw [h.polls] at hm
        rcases hd with hne | hpolls | htime
        · exact absurd (verdict_pending_iff.1 hv) (hne p hfound)
        · exact absurd hpolls hm
        · rw [h.clock]
          rw [Nat.add_sub_cancel] at htime
          omega

/-! ## 3. The whole watch -/

/-- From a run in front of poll `n + 1`, polling ends with poll `k` if that is the first to
    decide. -/
theorem Waiting.pollFrom (hq : w.Quiet) {k : Nat}
    (hk : IsLeast {k | 1 ≤ k ∧ Deciding s w b.revision k} k) :
    ∀ (left fuel n : Nat) {r : Run}, n + 1 + left = k → left < fuel → Waiting s w n r →
      ∃ r', Run.pollFrom s w b fuel r = some ((w.answers k).decides s b.revision, r') ∧
        DecidedAt s w b.revision k (r'.report s ((w.answers k).decides s b.revision))
  | left, 0, _, _, _, hfuel, _ => absurd hfuel (Nat.not_lt_zero left)
  | 0, fuel + 1, n, r, hn, _, h => by
    subst hn
    obtain ⟨r', hround, hend⟩ := h.toPaced.ends h.calm.isAsked hk.1.2
    exact ⟨r', Run.pollFrom_of_ends hround fuel, .of_endedBy h.toPaced hend⟩
  | left + 1, fuel + 1, n, r, hn, hfuel, h => by
    have hd : ¬ Deciding s w b.revision (n + 1) :=
      not_deciding_of_lt hk (show n + 1 < k by omega) (n + 1) (by omega) (Nat.le_refl _)
    obtain ⟨r', hround, h'⟩ := h.goesOn hq hd
    obtain ⟨r'', hend, hdec⟩ :=
      Waiting.pollFrom hq hk left fuel (n + 1) (by omega) (by omega) h'
    exact ⟨r'', by rw [Run.pollFrom_of_goesOn hround, hend], hdec⟩

/-- What is known of a watch that has no baseline. -/
structure Ungrounded (s : Settings) (w : Surroundings) (rep : Report) : Prop where
  outcome : ∀ b, rep.outcome = (w.answers 0).decides s b
  queries : rep.queries = 1
  polls : rep.polls = 0
  sleeps : rep.sleeps = 0
  elapsed : rep.elapsedMillis = 0
  trigger : rep.trigger = none
  firings : rep.firings = 0

theorem ungrounded {e : Error} (h : (w.answers 0).package s = .error e) :
    Ungrounded s w (((Run.start w).asked w).report s (.failed e)) where
  outcome b := (decides_of_error h b).symm
  queries := rfl
  polls := rfl
  sleeps := rfl
  elapsed := rfl
  trigger := rfl
  firings := by
    rw [Run.firings_report, Run.firings_asked]
    rfl

/-- **A watch that sleeps between its polls and that nobody stops** is decided by the first answer
    that does, however many polls that takes. -/
theorem run_decided (s : Settings) (w : Surroundings) (hI : 0 < s.intervalMillis)
    (hq : w.Quiet) :
    ((w.answers 0).isFound = false → Ungrounded s w (run s w)) ∧
      ∀ b, w.answers 0 = .found b →
        ∃ k, IsLeast {k | 1 ≤ k ∧ Deciding s w b.revision k} k ∧
          DecidedAt s w b.revision k (run s w) := by
  refine ⟨fun hf => ?_, fun b hb => ?_⟩
  · cases ha : (w.answers 0).package s with
    | error e =>
      have hrun : run s w = ((Run.start w).asked w).report s (.failed e) := by
        rw [run, run?, Run.drive_unanswered (r := Run.start w) _ ha]
        rfl
      rw [hrun]
      exact ungrounded ha
    | ok b =>
      rw [package_ok ha] at hf
      cases hf
  · have ha : (w.answers 0).package s = .ok b := by rw [hb]; rfl
    obtain ⟨k, hk, hle⟩ := exists_first_deciding w b.revision hI
    have hpos := hk.1.1
    obtain ⟨r', hpoll, hdec⟩ := Waiting.pollFrom (s := s) hq hk (k - 1) s.pollsInTime 0
      (by omega) (by omega) (.start hq b)
    have hasked := ((Run.Calm.start hq).grounded hq b).isAsked
    have hrun : run s w = r'.report s ((w.answers k).decides s b.revision) := by
      rw [run, run?, Run.drive_answered (r := Run.start w) _ ha, hasked,
        if_neg Bool.false_ne_true, hpoll]
      rfl
    rw [hrun]
    exact ⟨k, hk, hdec⟩

/-- **The first deciding answer decides the watch.** A watch that sleeps between its polls and that
    nobody stops ends on every machine that carries it. If the first answer does not name the
    package, that is the cause, and the agent is not told. Otherwise the first poll that decides is
    the last one that is put, the agent has been told once, and the outcome is decided by the answer
    to that poll alone. -/
theorem run_first_deciding (m : Machine) (s : Settings) (w : Surroundings)
    (hI : 0 < s.intervalMillis) (hq : w.Quiet) (hs : s.InWords) (hm : m.Carries s (run s w)) :
    ∃ rep, m.run? s w s.pollsInTime = some (.ok rep) ∧
      ((w.answers 0).isFound = false → Ungrounded s w rep) ∧
      ∀ b, w.answers 0 = .found b →
        ∃ k, IsLeast {k | 1 ≤ k ∧ Deciding s w b.revision k} k ∧
          DecidedAt s w b.revision k rep := by
  obtain ⟨hungrounded, hdecided⟩ := run_decided s w hI hq
  exact ⟨run s w, Machine.run?_of_carries hs (run?_pollsInTime s w hI) hm, hungrounded, hdecided⟩

/-- The agent at a revision, running. -/
private def agentAt (n : Nat) (h : n < Decimal.word64 := by decide) : Package :=
  ⟨"phantom-agent", ⟨n, h⟩, none, .service true⟩

/-- The update shows at the fourth poll, which an interval of four puts at the deadline of ten. -/
private def updateAtDeadline : Surroundings where
  answers n := .found (if n < 4 then agentAt 42 else agentAt 43)
  firing := .outcome (.rejected 500)
  inbox := some { capacity := 4 }

theorem run_first_deciding_at_deadline :
    let s : Settings := ⟨"phantom-agent", 4, 10, none⟩
    0 < s.intervalMillis ∧ updateAtDeadline.Quiet ∧ s.InWords ∧
      Machine.Carries .usual s (run s updateAtDeadline) ∧
      ∃ rep, Machine.usual.run? s updateAtDeadline s.pollsInTime = some (.ok rep) ∧
        rep.polls = 4 ∧
        ∃ k, IsLeast {k | 1 ≤ k ∧ Deciding s updateAtDeadline (agentAt 42).revision k} k ∧
          DecidedAt s updateAtDeadline (agentAt 42).revision k rep := by
  intro s
  have hq : updateAtDeadline.Quiet := Surroundings.quiet_silent rfl rfl
  have hs : s.InWords := fun _ hmax => nomatch hmax
  have hm : Machine.Carries .usual s (run s updateAtDeadline) :=
    ⟨⟨by decide +kernel, by decide +kernel⟩, by decide +kernel⟩
  obtain ⟨rep, hrun, -, hdecided⟩ :=
    run_first_deciding .usual s updateAtDeadline (by decide) hq hs hm
  have hpolls : rep.polls = 4 := by
    have hall : (Machine.usual.run? s updateAtDeadline s.pollsInTime).map
        (·.toOption.map Report.polls) = some (some 4) := by decide +kernel
    rw [hrun] at hall
    exact Option.some.inj (Option.some.inj hall)
  exact ⟨by decide, hq, hs, hm, rep, hrun, hpolls, hdecided (agentAt 42) rfl⟩

end RevisionWatch.Watch
