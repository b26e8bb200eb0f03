import RevisionWatch.Proofs.Watch.Rounds
/-!
# The pace of a watch

Whatever is answered and whatever is sent, the rounds of a watch keep one pace: the run behind `n`
of them has asked `n + 1` times, has polled and slept `n` times, and its clock shows `n` intervals,
or the deadline if that is earlier (`Paced`, kept by `Paced.step`). A watch that sleeps between its
polls therefore ends, and within the rounds that `pollsInTime` counts (`run?_pollsInTime`); of its
courses there is one, so whoever finds a course has its report (`Course.run_eq`).
-/

namespace RevisionWatch.Watch

variable {s : Settings} {w : Surroundings} {b : Package} {r r' : Run} {n : Nat}

/-- A run behind `n` rounds, each of which was slept on. -/
structure Paced (s : Settings) (w : Surroundings) (n : Nat) (r : Run) : Prop where
  queries : r.queries = n + 1
  polls : r.polls = n
  sleeps : r.sleeps = n
  clock : r.clock = min (n * s.intervalMillis) s.timeoutMillis
  trigger : r.trigger = some w.firing.toOutcome
  firings : r.firings = 1

/-- The agent has been told, and no poll has been made. -/
theorem Paced.start (s : Settings) (w : Surroundings) (b : Package) :
    Paced s w 0 (((Run.start w).grounded w b).told w) where
  queries := rfl
  polls := rfl
  sleeps := rfl
  clock := by
    show 0 = _
    rw [Nat.zero_mul, Nat.zero_min]
  trigger := rfl
  firings := rfl

/-- **A round that is slept on takes an interval**, or the time up to the deadline. -/
theorem Paced.step (h : Paced s w n r) (hs : Run.Round s w b r none r') :
    Paced s w (n + 1) r' := by
  cases hs with
  | slept p hask ha hv hm ht hslept =>
    have hon := Run.sleptOn s w p r
    obtain ⟨c, i, d, hframe, hwake⟩ := Run.sleep_frame s w (r.unchanged w p)
    exact {
      queries := by rw [hon.queries, h.queries]
      polls := by rw [hon.polls, h.polls]
      sleeps := by rw [hon.sleeps, h.sleeps]
      clock := by
        rw [hframe]
        show c = _
        rw [hwake hslept, Run.wake, (Run.unchanged_fields w p r).1, h.clock, Nat.add_one_mul]
        omega
      trigger := by rw [hon.trigger, h.trigger]
      firings := by rw [hon.firings, h.firings] }

/-- Every run that polling reaches keeps the pace. -/
theorem Paced.reached {r₀ : Run} (h : Paced s w n r₀) (hr : Run.Reached s w b r₀ r) :
    ∃ m, Paced s w m r :=
  hr.counted h fun _ _ _ hm hs => hm.step hs

/-- A round that is slept on begins before the deadline. -/
theorem Paced.lt_timeout (h : Paced s w n r) (hs : Run.Round s w b r none r') :
    n * s.intervalMillis < s.timeoutMillis := by
  cases hs with
  | slept p hask ha hv hm ht hslept =>
    rw [h.clock] at ht
    omega

/-- With an interval there is an end: `left` more rounds reach the deadline. -/
theorem Paced.pollFrom_isSome : ∀ (left fuel n : Nat) {r : Run}, Paced s w n r → left < fuel →
    s.timeoutMillis ≤ (n + left) * s.intervalMillis → (Run.pollFrom s w b fuel r).isSome = true
  | left, 0, _, _, _, hfuel, _ => absurd hfuel (Nat.not_lt_zero left)
  | left, fuel + 1, n, r, h, hfuel, htime => by
    obtain ⟨o, r', hr⟩ := Run.exists_round s w b r
    cases o with
    | some o => rw [Run.pollFrom_of_ends hr]; rfl
    | none =>
      rw [Run.pollFrom_of_goesOn hr]
      have hlt := h.lt_timeout hr
      cases left with
      | zero => exact absurd htime (Nat.not_le.2 hlt)
      | succ left =>
        refine Paced.pollFrom_isSome left fuel (n + 1) (h.step hr) (by omega) ?_
        rw [Nat.add_right_comm, Nat.add_assoc]
        exact htime

/-- The rounds that `pollsInTime` counts reach the deadline, and there is one to spare. -/
theorem timeout_le_pollsInTime (hI : 0 < s.intervalMillis) :
    s.timeoutMillis ≤ (s.pollsInTime - 1) * s.intervalMillis := by
  have hdiv := Nat.lt_div_mul_add hI (a := s.timeoutMillis)
  have hk : s.pollsInTime - 1 = s.timeoutMillis / s.intervalMillis + 1 := rfl
  rw [hk, Nat.add_one_mul]
  exact Nat.le_of_lt hdiv

/-- **A watch that sleeps between its polls ends**, whatever it meets. -/
theorem run?_pollsInTime (s : Settings) (w : Surroundings) (hI : 0 < s.intervalMillis) :
    run? s w s.pollsInTime = some (run s w) := by
  have hsome : (run? s w s.pollsInTime).isSome = true := by
    rw [run?, Option.isSome_map]
    cases ha : (w.answers 0).package s with
    | error e =>
      rw [Run.drive_unanswered (r := Run.start w) _ ha]
      rfl
    | ok b =>
      rw [Run.drive_answered (r := Run.start w) _ ha]
      split
      · rfl
      · have htime := timeout_le_pollsInTime hI
        rw [← Nat.zero_add (s.pollsInTime - 1)] at htime
        have hfuel : s.pollsInTime - 1 < s.pollsInTime := Nat.sub_lt (Nat.succ_pos _) Nat.one_pos
        exact (Paced.start s w b).pollFrom_isSome _ _ 0 hfuel htime
  obtain ⟨rep, hrep⟩ := Option.isSome_iff_exists.1 hsome
  rw [run, hrep]
  rfl

/-! ## One course -/

/-- What polling comes to does not depend on the round it is looked at from. -/
theorem Run.pollFrom_of_reached {r₀ : Run} {o : Outcome} (hr : Run.Reached s w b r₀ r)
    {fuel : Nat} (h : Run.pollFrom s w b fuel r₀ = some (o, r')) :
    ∃ fuel', Run.pollFrom s w b fuel' r = some (o, r') := by
  induction hr with
  | start => exact ⟨fuel, h⟩
  | step r₁ r₂ _ hs ih =>
    obtain ⟨fuel', h'⟩ := ih
    cases fuel' with
    | zero => cases h'
    | succ fuel' =>
      rw [Run.pollFrom_of_goesOn hs] at h'
      exact ⟨fuel', h'⟩

/-- Polling ends as its last round does. -/
theorem Run.pollFrom_eq_of_ends {r₀ r₁ : Run} {o o₁ : Outcome} (hr : Run.Reached s w b r₀ r)
    (he : Run.Round s w b r (some o) r') {fuel : Nat}
    (h : Run.pollFrom s w b fuel r₀ = some (o₁, r₁)) : (o₁, r₁) = (o, r') := by
  obtain ⟨fuel', h'⟩ := Run.pollFrom_of_reached hr h
  cases fuel' with
  | zero => cases h'
  | succ fuel' =>
    rw [Run.pollFrom_of_ends he] at h'
    exact (Option.some.inj h').symm

/-- **A watch that sleeps between its polls has one course**, and its report is that of its end. -/
theorem Run.Course.run_eq {o : Outcome} (hI : 0 < s.intervalMillis) (hc : Run.Course s w o r) :
    run s w = r.report s o := by
  have hrun := run?_pollsInTime s w hI
  unfold run? at hrun
  obtain ⟨⟨o₁, r₁⟩, hdrive, hreport⟩ := Option.map_eq_some_iff.1 hrun
  suffices h : (o₁, r₁) = (o, r) by
    rw [← hreport, h]
  cases hc with
  | unanswered e ha =>
    rw [Run.drive_unanswered (r := Run.start w) _ ha] at hdrive
    exact (Option.some.inj hdrive).symm
  | stopped p ha h =>
    rw [Run.drive_answered (r := Run.start w) _ ha, h] at hdrive
    exact (Option.some.inj hdrive).symm
  | polled p ha h o r r' hr he =>
    rw [Run.drive_answered (r := Run.start w) _ ha, h] at hdrive
    exact Run.pollFrom_eq_of_ends hr he hdrive

end RevisionWatch.Watch
