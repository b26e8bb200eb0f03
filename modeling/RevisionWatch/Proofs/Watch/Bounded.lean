import RevisionWatch.Proofs.Config.Sound
import RevisionWatch.Proofs.Watch.Deciding
import Mathlib.Algebra.Order.Floor.Div
/-!
# How long a watch can take

A watch with an accepted configuration ends (`bounded_wait`). One poll is put at once and one behind
every sleep, and no sleep goes past the deadline, so there are no more polls than intervals begun
before the deadline and one, and no more than the configuration allows; what time a watch takes is
within its timeout. Whichever of the two bounds ends it is reached exactly: the last poll it allows
is made, or a poll is put at the deadline itself, also where the interval does not divide the
timeout or is longer. The answers, the agent and the time at which the watch is asked to stop are
left open.

* `Run.clock_sleep_le` -- a sleep that begins before the deadline is over by then;
* `Timely` -- the invariant of the polling: the pace, the intervals begun, and the polls left;
* `Timely.ends` -- what the last round makes of it;
* `Machine.run?_of_check` -- a machine carries such a watch, if it can tell a time one interval
  behind the deadline.
-/

namespace RevisionWatch.Watch

variable {s : Settings} {w : Surroundings} {b p : Package} {r r' : Run} {n : Nat} {o : Outcome}

/-! ## 1. Sleeps and the deadline -/

/-- A watch is woken before its sleep would end. -/
theorem Run.overhear_lt {wake t : Nat} : ∀ (due : List (Nat × Sent)) {r : Run},
    (overhear wake due r).1 = some t → t < wake
  | [], _, h => nomatch h
  | (u, sent) :: due, r, h => by
    unfold overhear at h
    by_cases hu : u ≤ wake
    · simp only [hu, if_true] at h
      split at h
      · rename_i hasked
        cases h
        exact of_decide_eq_true (Bool.and_eq_true_iff.1 hasked).2
      · exact overhear_lt due h
    · simp only [hu, if_false] at h
      cases h

/-- **No sleep goes past the deadline.** -/
theorem Run.clock_sleep_le (w : Surroundings) (h : r.clock ≤ s.timeoutMillis) :
    (r.sleep s w).2.clock ≤ s.timeoutMillis := by
  have hwake : r.wake s ≤ s.timeoutMillis := Nat.min_le_right _ _
  cases hask : (r.resting w).isAsked with
  | true =>
    rw [sleep_asked s hask]
    exact h
  | false =>
    obtain ⟨i, d, hframe⟩ := overhear_frame (r.wake s) r.due (r.resting w)
    rw [sleep_unasked s hask]
    rcases he : overhear (r.wake s) r.due (r.resting w) with ⟨_ | t, r'⟩
    · exact hwake
    · have hlt : t < r.wake s := overhear_lt r.due (congrArg Prod.fst he)
      rw [he] at hframe
      subst hframe
      exact Nat.max_le.2 ⟨h, Nat.le_trans (Nat.le_of_lt hlt) hwake⟩

/-- A round that begins before the deadline is over by then. -/
theorem Run.Round.clock_le {res : Option Outcome} (hr : Run.Round s w b r res r')
    (h : r.clock ≤ s.timeoutMillis) : r'.clock ≤ s.timeoutMillis := by
  have hu : ∀ p, (r.unchanged w p).clock ≤ s.timeoutMillis := fun p => by
    rw [(r.unchanged_fields w p).1]
    exact h
  cases hr with
  | pollsUsedUp p hask ha hv hm => exact hu p
  | timeUsedUp p hask ha hv hm htime => exact hu p
  | woken p hask ha hv hm htime hs => exact Run.clock_sleep_le w (hu p)
  | slept p hask ha hv hm htime hs => exact Run.clock_sleep_le w (hu p)
  | _ => exact h

/-! ## 2. Rounds and the bounds -/

/-- How many intervals are begun before the deadline. -/
def Settings.intervals (s : Settings) : Nat :=
  s.timeoutMillis ⌈/⌉ s.intervalMillis

theorem Settings.lt_intervals_iff (hI : 0 < s.intervalMillis) :
    n < s.intervals ↔ n * s.intervalMillis < s.timeoutMillis := by
  rw [← not_le, ← not_le, Settings.intervals, ceilDiv_le_iff_le_mul hI, Nat.mul_comm]

/-- **A run in front of a poll**, `n` others being made and slept on, for each of which an interval
    was begun and which leave a poll. -/
structure Timely (s : Settings) (w : Surroundings) (n : Nat) (r : Run) : Prop
    extends Paced s w n r where
  begun : n ≤ s.intervals
  budget : ∀ m, s.maxPolls = some m → n < m

theorem Timely.start (hM : s.maxPolls ≠ some 0) (b : Package) :
    Timely s w 0 (((Run.start w).grounded w b).told w) where
  toPaced := .start s w b
  begun := Nat.zero_le _
  budget _ hm := Nat.pos_of_ne_zero fun h => hM (h ▸ hm)

theorem Timely.step (hI : 0 < s.intervalMillis) (h : Timely s w n r)
    (hr : Run.Round s w b r none r') : Timely s w (n + 1) r' where
  toPaced := h.toPaced.step hr
  begun := (Settings.lt_intervals_iff hI).2 (h.toPaced.lt_timeout hr)
  budget m hm := by
    cases hr with
    | slept p hask ha hv hleft htime hs =>
      rw [h.polls] at hleft
      exact Nat.lt_of_not_le fun hle => hleft ⟨m, hm, hle⟩

theorem Timely.reached (hI : 0 < s.intervalMillis) {r₀ : Run} (h : Timely s w n r₀)
    (hr : Run.Reached s w b r₀ r) : ∃ m, Timely s w m r :=
  hr.counted h fun _ _ _ hm hs => hm.step hI hs

theorem Timely.clock_le (h : Timely s w n r) : r.clock ≤ s.timeoutMillis := by
  rw [h.clock]
  exact Nat.min_le_right _ _

/-- **What the last round makes of it**, `n` others being made: there is one poll more at most, and
    one sleep more if there is that poll; if the bounds end the watch, then by the last poll that is
    allowed, or with a poll at the deadline. -/
structure Timely.End (s : Settings) (n : Nat) (o : Outcome) (r r' : Run) : Prop where
  polls_le : r'.polls ≤ n + 1
  sleeps_le : r'.sleeps ≤ r'.polls
  clock_le : r'.clock ≤ s.timeoutMillis
  timedOut : o = .timedOut → r'.polls = n + 1 ∧ r.isAsked = false ∧
    (s.maxPolls = some r'.polls ∨
      n = s.intervals ∧ r.clock = s.timeoutMillis ∧ r'.clock = s.timeoutMillis)

theorem Timely.ends (hI : 0 < s.intervalMillis) (h : Timely s w n r)
    (hr : Run.Round s w b r (some o) r') : Timely.End s n o r r' := by
  have hclock := hr.clock_le h.clock_le
  have hpolls : (n + 1 : Nat) = r.polls + 1 := by rw [h.polls]
  have hsleeps : r.sleeps ≤ r.polls := by rw [h.sleeps, h.polls]
  cases hr with
  | stopped hask =>
    exact ⟨by rw [h.polls]; exact Nat.le_succ n, hsleeps, hclock, fun ho => nomatch ho⟩
  | unanswered e hask ha =>
    have hp : (r.asked w).polls = n := h.polls
    exact ⟨by rw [hp]; exact Nat.le_succ n, hsleeps, hclock, fun ho => nomatch ho⟩
  | done p hask ha hv =>
    exact ⟨Nat.le_of_eq hpolls.symm, Nat.le_succ_of_le hsleeps, hclock, fun ho => nomatch ho⟩
  | wrong p e hask ha hv =>
    exact ⟨Nat.le_of_eq hpolls.symm, Nat.le_succ_of_le hsleeps, hclock, fun ho => nomatch ho⟩
  | pollsUsedUp p hask ha hv hm =>
    obtain ⟨-, -, hp, hsl, -⟩ := r.unchanged_fields w p
    obtain ⟨m, hmax, hle⟩ := hm
    have hlast : m = n + 1 := by
      have hlt := h.budget m hmax
      rw [h.polls] at hle
      omega
    have hp' : ((r.unchanged w p).note (.pollsUsedUp (r.polls + 1))).polls = n + 1 :=
      hp.trans hpolls.symm
    refine ⟨Nat.le_of_eq hp', ?_, hclock, fun _ => ⟨hp', hask, .inl ?_⟩⟩
    · rw [hp', hpolls]
      exact Nat.le_succ_of_le (hsl ▸ hsleeps)
    · rw [hp', hmax, hlast]
  | timeUsedUp p hask ha hv hm htime =>
    obtain ⟨hc, -, hp, hsl, -⟩ := r.unchanged_fields w p
    have hdeadline : r.clock = s.timeoutMillis := Nat.le_antisymm h.clock_le htime
    have hp' : ((r.unchanged w p).note (.timeUsedUp (r.polls + 1))).polls = n + 1 :=
      hp.trans hpolls.symm
    have hall : n = s.intervals := by
      refine Nat.le_antisymm h.begun (Nat.le_of_not_lt fun hlt => ?_)
      have hbefore := (Settings.lt_intervals_iff hI).1 hlt
      rw [h.clock] at hdeadline
      omega
    refine ⟨Nat.le_of_eq hp', ?_, hclock, fun _ => ⟨hp', hask, .inr ⟨hall, hdeadline, ?_⟩⟩⟩
    · rw [hp', hpolls]
      exact Nat.le_succ_of_le (hsl ▸ hsleeps)
    · exact hc.trans hdeadline
  | woken p hask ha hv hm htime hs =>
    have hon := Run.sleptOn s w p r
    refine ⟨Nat.le_of_eq (hon.polls.trans hpolls.symm), ?_, hclock, fun ho => nomatch ho⟩
    rw [hon.polls, hon.sleeps]
    exact Nat.succ_le_succ hsleeps

/-! ## 3. The whole watch -/

/-- The watch comes to be in front of a poll. -/
def Visits (s : Settings) (w : Surroundings) (b : Package) (r : Run) : Prop :=
  w.answers 0 = .found b ∧ ((Run.start w).grounded w b).isAsked = false ∧
    Run.Reached s w b (((Run.start w).grounded w b).told w) r

/-- The poll of number `k`, counted from one, is put at a time. -/
def PollsAt (s : Settings) (w : Surroundings) (k t : Nat) : Prop :=
  ∃ b r, Visits s w b r ∧ r.isAsked = false ∧ r.queries = k ∧ r.clock = t

/-- A sleep is over at a time, slept to its end or not. -/
def WakesAt (s : Settings) (w : Surroundings) (t : Nat) : Prop :=
  ∃ b r res r', Visits s w b r ∧ Run.Round s w b r res r' ∧ r'.sleeps = r.sleeps + 1 ∧
    r'.clock = t

theorem Visits.timely (hI : 0 < s.intervalMillis) (hM : s.maxPolls ≠ some 0)
    (h : Visits s w b r) : ∃ n, Timely s w n r :=
  (Timely.start hM b).reached hI h.2.2

/-- A bound that a word holds keeps the counters within the word. -/
theorem Timely.lt_word32 (h : Timely s w n r)
    (hsmall : (∃ m, s.maxPolls = some m ∧ m < Decimal.word32) ∨
      s.intervals + 1 < Decimal.word32) : n + 1 < Decimal.word32 := by
  rcases hsmall with ⟨m, hm, hlt⟩ | hlt
  · have hleft : n < m := h.budget m hm
    omega
  · have hbegun : n ≤ s.intervals := h.begun
    omega

/-- What an accepted configuration is needed for. -/
theorem Config.bounds_of_check {c : Config} (h : c.check = .ok c) :
    0 < c.pollIntervalSecs ∧ 0 < c.timeoutSecs ∧ c.maxPolls ≠ some 0 := by
  have hsound : c.Sound := (Config.check_eq_ok.1 h).2
  exact ⟨hsound.interval, hsound.timeout, hsound.maxPolls⟩

theorem Settings.intervals_ofConfig {c : Config} (hI : 0 < c.pollIntervalSecs) :
    (Settings.ofConfig c).intervals = c.timeoutSecs ⌈/⌉ c.pollIntervalSecs := by
  have hI' : 0 < c.pollIntervalSecs * 1000 := Nat.mul_pos hI (by decide)
  refine eq_of_forall_ge_iff fun k => ?_
  show c.timeoutSecs * 1000 ⌈/⌉ (c.pollIntervalSecs * 1000) ≤ k ↔ _
  rw [ceilDiv_le_iff_le_mul hI', ceilDiv_le_iff_le_mul hI, Nat.mul_right_comm]
  exact Nat.mul_le_mul_right_iff (by decide)

/-- **The bounds of a watch** with a configuration, whose times are in seconds. -/
structure BoundedBy (c : Config) (w : Surroundings) (rep : Report) : Prop where
  polls_le : rep.polls ≤ c.timeoutSecs ⌈/⌉ c.pollIntervalSecs + 1
  polls_le_max : ∀ m, c.maxPolls = some m → rep.polls ≤ m
  sleeps_le : rep.sleeps ≤ rep.polls
  wakes_le : ∀ t, WakesAt (.ofConfig c) w t → t ≤ c.timeoutSecs * 1000
  elapsed_le : rep.elapsedMillis ≤ c.timeoutSecs * 1000
  timedOut : rep.outcome = .timedOut →
    c.maxPolls = some rep.polls ∨ rep.elapsedMillis = c.timeoutSecs * 1000
  deadline : rep.outcome = .timedOut → c.maxPolls ≠ some rep.polls →
    rep.polls = c.timeoutSecs ⌈/⌉ c.pollIntervalSecs + 1 ∧
      PollsAt (.ofConfig c) w rep.polls (c.timeoutSecs * 1000)
  counters : ((∃ m, c.maxPolls = some m ∧ m < Decimal.word32) ∨
      c.timeoutSecs ⌈/⌉ c.pollIntervalSecs + 1 < Decimal.word32) →
    rep.polls < Decimal.word32 ∧ rep.sleeps < Decimal.word32 ∧
      ∀ b r, Visits (.ofConfig c) w b r → r.polls < Decimal.word32 ∧ r.sleeps < Decimal.word32

/-- The bounds that hold of every run in front of a poll. -/
theorem Visits.bounded {c : Config} (hI : 0 < c.pollIntervalSecs) (hM : c.maxPolls ≠ some 0) :
    (∀ t, WakesAt (.ofConfig c) w t → t ≤ c.timeoutSecs * 1000) ∧
    (((∃ m, c.maxPolls = some m ∧ m < Decimal.word32) ∨
      c.timeoutSecs ⌈/⌉ c.pollIntervalSecs + 1 < Decimal.word32) →
      ∀ b r, Visits (.ofConfig c) w b r →
        r.polls < Decimal.word32 ∧ r.sleeps < Decimal.word32) := by
  have hI' : 0 < (Settings.ofConfig c).intervalMillis := Nat.mul_pos hI (by decide)
  constructor
  · rintro t ⟨b, r, res, r', hv, hr, -, rfl⟩
    obtain ⟨n, hn⟩ := hv.timely hI' hM
    exact hr.clock_le hn.clock_le
  · intro hsmall b r hv
    obtain ⟨n, hn⟩ := hv.timely hI' hM
    rw [← Settings.intervals_ofConfig hI] at hsmall
    have hlt : n + 1 < Decimal.word32 := hn.lt_word32 hsmall
    rw [hn.polls, hn.sleeps]
    exact ⟨by omega, by omega⟩

/-- A watch that does not come to tell the agent makes no poll and takes no time. -/
theorem boundedBy_of_untold {c : Config} (hI : 0 < c.pollIntervalSecs)
    (hM : c.maxPolls ≠ some 0) (ho : o ≠ .timedOut) (hp : r.polls = 0) (hs : r.sleeps = 0)
    (hc : r.clock = 0) : BoundedBy c w (r.report (.ofConfig c) o) := by
  obtain ⟨houtcome, -, hpolls, hsleeps, helapsed, -⟩ := r.report_fields (.ofConfig c) o
  obtain ⟨hwakes, hcounters⟩ := Visits.bounded (w := w) hI hM
  rw [hp] at hpolls
  rw [hs] at hsleeps
  rw [hc] at helapsed
  refine ⟨by omega, fun m _ => by omega, by omega, hwakes, by omega, fun h => ?_, fun h => ?_, ?_⟩
  · exact absurd (houtcome.symm.trans h) ho
  · exact absurd (houtcome.symm.trans h) ho
  · intro hsmall
    rw [hpolls, hsleeps]
    exact ⟨by decide, by decide, hcounters hsmall⟩

/-- A watch that tells the agent, and whose last round was taken from a run that it visits. -/
theorem Timely.End.boundedBy {c : Config} (hI : 0 < c.pollIntervalSecs)
    (hM : c.maxPolls ≠ some 0) (hv : Visits (.ofConfig c) w b r)
    (hn : Timely (.ofConfig c) w n r) (he : Timely.End (.ofConfig c) n o r r') :
    BoundedBy c w (r'.report (.ofConfig c) o) := by
  obtain ⟨houtcome, -, hpolls, hsleeps, helapsed, -⟩ := r'.report_fields (.ofConfig c) o
  obtain ⟨hwakes, hcounters⟩ := Visits.bounded (w := w) hI hM
  have hmost := Settings.intervals_ofConfig hI
  have hbegun : n ≤ c.timeoutSecs ⌈/⌉ c.pollIntervalSecs := hmost ▸ hn.begun
  have hle := he.polls_le
  have hsle := he.sleeps_le
  refine {
    polls_le := by omega
    polls_le_max := fun m hm => ?_
    sleeps_le := by omega
    wakes_le := hwakes
    elapsed_le := helapsed ▸ he.clock_le
    timedOut := fun ho => ?_
    deadline := fun ho hnot => ?_
    counters := fun hsmall => ⟨?_, ?_, hcounters hsmall⟩ }
  · have hleft : n < m := hn.budget m hm
    omega
  · obtain ⟨-, -, hmax | ⟨-, -, hclock⟩⟩ := he.timedOut (houtcome.symm.trans ho)
    · exact .inl (hpolls ▸ hmax)
    · exact .inr (helapsed.trans hclock)
  · obtain ⟨hlast, hask, hmax | ⟨hall, hclock, -⟩⟩ := he.timedOut (houtcome.symm.trans ho)
    · exact absurd (hpolls ▸ hmax) hnot
    · rw [hpolls, hlast, hall, hmost]
      refine ⟨rfl, b, r, hv, hask, ?_, hclock⟩
      rw [hn.queries, hall, hmost]
  · have hlt : n + 1 < Decimal.word32 := hn.lt_word32 (hmost ▸ hsmall)
    omega
  · have hlt : n + 1 < Decimal.word32 := hn.lt_word32 (hmost ▸ hsmall)
    omega

/-- **A watch with an accepted configuration ends, and within its bounds.** -/
theorem bounded_wait (c : Config) (w : Surroundings) (hc : c.check = .ok c) :
    run? (.ofConfig c) w (Settings.ofConfig c).pollsInTime = some (run (.ofConfig c) w) ∧
      BoundedBy c w (run (.ofConfig c) w) := by
  obtain ⟨hI, -, hM⟩ := Config.bounds_of_check hc
  have hI' : 0 < (Settings.ofConfig c).intervalMillis := Nat.mul_pos hI (by decide)
  have hrun := run?_pollsInTime (.ofConfig c) w hI'
  refine ⟨hrun, ?_⟩
  obtain ⟨o, r', hcourse, hrep⟩ := run?_eq_some hrun
  rw [hrep]
  cases hcourse with
  | unanswered e ha => exact boundedBy_of_untold hI hM (fun h => nomatch h) rfl rfl rfl
  | stopped p ha hask => exact boundedBy_of_untold hI hM (fun h => nomatch h) rfl rfl rfl
  | polled p ha hask o r r' hr he =>
    have hv : Visits (.ofConfig c) w p r := ⟨package_ok ha, hask, hr⟩
    obtain ⟨n, hn⟩ := hv.timely hI' hM
    exact (hn.ends hI' he).boundedBy hI hM hv hn

/-- The revision is the last there is, so that it never changes, and the interval of four seconds
    does not divide the ten of the timeout. -/
private def unmoved : Surroundings where
  answers _ := .found ⟨"phantom-agent", .last, none, .service true⟩
  firing := .outcome (.accepted 200)

private def tenSeconds : Config where
  pollIntervalSecs := 4
  timeoutSecs := 10

/-- The fourth poll is put at the deadline. -/
theorem bounded_wait_ten_seconds :
    tenSeconds.check = .ok tenSeconds ∧
      (run (.ofConfig tenSeconds) unmoved).outcome = .timedOut ∧
      (run (.ofConfig tenSeconds) unmoved).polls = 4 ∧
      run? (.ofConfig tenSeconds) unmoved (Settings.ofConfig tenSeconds).pollsInTime =
        some (run (.ofConfig tenSeconds) unmoved) ∧
      BoundedBy tenSeconds unmoved (run (.ofConfig tenSeconds) unmoved) := by
  have hc : tenSeconds.check = .ok tenSeconds := by decide +kernel
  exact ⟨hc, by decide +kernel, by decide +kernel, bounded_wait tenSeconds unmoved hc⟩

/-! ## 4. On a machine -/

/-- Every sleep is begun before the deadline, and an interval with it. -/
theorem Timely.sleeps_le (hI : 0 < s.intervalMillis) (h : Timely s w n r) {x : Option Outcome}
    (hr : Run.Round s w b r x r') : r'.sleeps ≤ s.intervals := by
  rcases h.toPaced.counts hr with ⟨-, hl⟩ | ⟨p, -, -, -, hl | ⟨hl, -, -, ht⟩⟩
  · exact hl ▸ h.begun
  · exact hl ▸ h.begun
  · have hbefore : n * s.intervalMillis < s.timeoutMillis := by
      rw [h.clock] at ht
      omega
    exact hl ▸ (Settings.lt_intervals_iff hI).2 hbefore

/-- The last interval that is begun before the deadline is over an interval behind it. -/
theorem Settings.intervals_mul_le (hI : 0 < s.intervalMillis) :
    s.intervals * s.intervalMillis ≤ s.timeoutMillis + s.intervalMillis := by
  cases hk : s.intervals with
  | zero =>
    rw [Nat.zero_mul]
    exact Nat.zero_le _
  | succ k =>
    have hbefore : k * s.intervalMillis < s.timeoutMillis :=
      (Settings.lt_intervals_iff hI).1 (hk ▸ Nat.lt_succ_self k)
    rw [Nat.add_one_mul]
    omega

/-- **A machine carries a watch within its bounds** if it can tell a time one interval behind the
    deadline. -/
theorem Machine.carries_of_bounds (m : Machine) (w : Surroundings) (hI : 0 < s.intervalMillis)
    (hM : s.maxPolls ≠ some 0) (ht : s.timeoutMillis + s.intervalMillis ≤ m.lastMillis)
    (hsmall : (∃ k, s.maxPolls = some k ∧ k < Decimal.word32) ∨
      s.intervals + 1 < Decimal.word32) : m.Carries s (run s w) := by
  obtain ⟨o, r', hcourse, hrep⟩ := run?_eq_some (run?_pollsInTime s w hI)
  obtain ⟨-, -, hpolls, hsleeps, -⟩ := r'.report_fields s o
  have hdeadline : s.timeoutMillis ≤ m.lastMillis := Nat.le_trans (Nat.le_add_right _ _) ht
  suffices h : r'.sleeps ≤ s.intervals ∧ r'.polls < Decimal.word32 by
    rw [hrep]
    refine ⟨⟨hdeadline, ?_⟩, hpolls ▸ h.2⟩
    rw [hsleeps]
    calc r'.sleeps * s.intervalMillis
        ≤ s.intervals * s.intervalMillis := Nat.mul_le_mul_right _ h.1
      _ ≤ s.timeoutMillis + s.intervalMillis := Settings.intervals_mul_le hI
      _ ≤ m.lastMillis := ht
  cases hcourse with
  | unanswered e ha => exact ⟨Nat.zero_le _, (by decide : 0 < Decimal.word32)⟩
  | stopped p ha hask => exact ⟨Nat.zero_le _, (by decide : 0 < Decimal.word32)⟩
  | polled p ha hask o r r' hr he =>
    obtain ⟨n, hn⟩ := (Timely.start hM p).reached hI hr
    exact ⟨hn.sleeps_le hI he, Nat.lt_of_le_of_lt (hn.ends hI he).polls_le (hn.lt_word32 hsmall)⟩

/-- **A watch with an accepted configuration has the same report on a machine**, if the bounds of its
    polls are within a word and those of its times within the clock. -/
theorem Machine.run?_of_check (m : Machine) (c : Config) (w : Surroundings) (hc : c.check = .ok c)
    (hs : (Settings.ofConfig c).InWords)
    (ht : (c.timeoutSecs + c.pollIntervalSecs) * 1000 ≤ m.lastMillis)
    (hsmall : c.maxPolls.isSome = true ∨
      c.timeoutSecs ⌈/⌉ c.pollIntervalSecs + 1 < Decimal.word32) :
    m.run? (.ofConfig c) w (Settings.ofConfig c).pollsInTime = some (.ok (run (.ofConfig c) w)) := by
  obtain ⟨hI, -, hM⟩ := Config.bounds_of_check hc
  have hI' : 0 < (Settings.ofConfig c).intervalMillis := Nat.mul_pos hI (by decide)
  rw [Nat.add_mul] at ht
  refine m.run?_of_carries hs (run?_pollsInTime _ w hI') (m.carries_of_bounds w hI' hM ht ?_)
  rw [Settings.intervals_ofConfig hI]
  exact hsmall.imp_left fun hset =>
    (Option.isSome_iff_exists.1 hset).imp fun k hk => ⟨hk, hs k hk⟩

end RevisionWatch.Watch
