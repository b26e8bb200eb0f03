import RevisionWatch.Proofs.Watch.Moment
import RevisionWatch.Proofs.Watch.Unsignalled
/-!
# The order of the moments

A watch that goes on comes to its moments in one order: by their time, and at one time what is due
then, the query, and the sleep behind it (`Moment.Before`). Behind its first `n` rounds
(`Moment.Follows`) nothing of these rounds can come any more, and every moment is of one of six
kinds (`Moment.kinds`). `FirstValue` is a plan by which the first value is sent at a moment; what is
sent behind it does not matter.
-/

namespace RevisionWatch.Watch

variable {s : Settings} {w : Surroundings} {m m' : Moment} {n : Nat}

/-! ## 1. The order of the moments -/

/-- When the poll is put before which `n` others are made. -/
def Settings.pollTime (s : Settings) (n : Nat) : Nat :=
  min (n * s.intervalMillis) s.timeoutMillis

theorem pollTime_mono (s : Settings) {j n : Nat} (h : j ≤ n) : s.pollTime j ≤ s.pollTime n := by
  have hmul : j * s.intervalMillis ≤ n * s.intervalMillis := Nat.mul_le_mul_right _ h
  unfold Settings.pollTime
  omega

@[simp] theorem pollTime_zero (s : Settings) : s.pollTime 0 = 0 := by
  rw [Settings.pollTime, Nat.zero_mul, Nat.zero_min]

namespace Moment

/-- Queries and sleeps are counted from one. -/
def Counted : Moment → Prop
  | .query k => 1 ≤ k
  | .sleep k => 1 ≤ k
  | _ => True

/-- The time at which a watch that goes on comes to the moment. The baseline is the first query, so
    that the first poll is the second. -/
def clock (s : Settings) : Moment → Nat
  | .start => 0
  | .query k => s.pollTime (k - 2)
  | .firing => 0
  | .sleep k => s.pollTime (k - 1)
  | .time t => t

/-- The place among the moments of one time. The agent is told behind the first query, and behind
    every later one there is a sleep. -/
def place : Moment → Nat
  | .start => 0
  | .time _ => 1
  | .query k => 2 * k
  | .firing => 3
  | .sleep k => 2 * k + 3

/-- A watch that goes on comes to the first moment before it comes to the second. -/
def Before (s : Settings) (m m' : Moment) : Prop :=
  m.clock s < m'.clock s ∨ m.clock s = m'.clock s ∧ m.place < m'.place

/-- The moment lies behind the first `n` polls and the sleeps behind them. -/
def Follows (s : Settings) (n : Nat) (m : Moment) : Prop :=
  s.pollTime n < m.clock s ∨ s.pollTime n = m.clock s ∧ 2 * n + 3 < m.place

theorem Follows.before (h : m.Follows s n) (hclock : m'.clock s ≤ s.pollTime n)
    (hplace : m'.place ≤ 2 * n + 3) : m'.Before s m := by
  unfold Before
  rcases h with hlt | ⟨heq, hlt⟩ <;> omega

theorem Follows.mono {j : Nat} (h : m.Follows s n) (hj : j ≤ n) : m.Follows s j := by
  have hle := pollTime_mono s hj
  unfold Follows at h ⊢
  omega

theorem follows_query {k : Nat} (h : n + 2 ≤ k) : (Moment.query k).Follows s n := by
  have hle := pollTime_mono s (show n ≤ k - 2 by omega)
  have hplace : 2 * n + 3 < (Moment.query k).place := show _ < 2 * k by omega
  exact (Nat.lt_or_eq_of_le hle).imp_right fun heq => ⟨heq, hplace⟩

theorem follows_sleep {k : Nat} (h : n + 1 ≤ k) : (Moment.sleep k).Follows s n := by
  have hle := pollTime_mono s (show n ≤ k - 1 by omega)
  have hplace : 2 * n + 3 < (Moment.sleep k).place := show _ < 2 * k + 3 by omega
  exact (Nat.lt_or_eq_of_le hle).imp_right fun heq => ⟨heq, hplace⟩

theorem follows_time {t : Nat} (h : s.pollTime n < t) : (Moment.time t).Follows s n :=
  .inl h

/-- A moment behind `n` polls comes before later queries only. -/
theorem Follows.lt_of_before {j : Nat} (h : m.Follows s n) (hb : m.Before s (.query j)) :
    n + 2 < j := by
  refine Nat.not_le.1 fun hle => ?_
  have hmono := pollTime_mono s (show j - 2 ≤ n by omega)
  have hclock : (Moment.query j).clock s = s.pollTime (j - 2) := rfl
  have hplace : (Moment.query j).place = 2 * j := rfl
  unfold Follows at h
  unfold Before at hb
  omega

theorem Follows.not_before_firing (h : m.Follows s n) : ¬ m.Before s .firing := by
  intro hb
  have hclock : Moment.firing.clock s = 0 := rfl
  have hplace : Moment.firing.place = 3 := rfl
  unfold Follows at h
  unfold Before at hb
  omega

/-- **Where a moment behind `n` rounds can lie**: in the next round, with its poll, at the beginning
    of its sleep, or in it; or behind that round too. -/
theorem Follows.next (h : m.Follows s n) :
    m = .query (n + 2) ∨ m = .sleep (n + 1) ∨
      (∃ t, m = .time t ∧ s.pollTime n < t ∧ t ≤ s.pollTime (n + 1)) ∨ m.Follows s (n + 1) := by
  unfold Follows at h
  cases m with
  | start =>
    have hclock : Moment.start.clock s = 0 := rfl
    have hplace : Moment.start.place = 0 := rfl
    omega
  | firing =>
    have hclock : Moment.firing.clock s = 0 := rfl
    have hplace : Moment.firing.place = 3 := rfl
    omega
  | query k =>
    have hclock : (Moment.query k).clock s = s.pollTime (k - 2) := rfl
    have hplace : (Moment.query k).place = 2 * k := rfl
    have hk : n + 2 ≤ k := Nat.not_lt.1 fun hlt => by
      have hmono := pollTime_mono s (show k - 2 ≤ n by omega)
      omega
    rcases Nat.lt_or_eq_of_le hk with hlt | rfl
    · exact .inr (.inr (.inr (follows_query hlt)))
    · exact .inl rfl
  | sleep k =>
    have hclock : (Moment.sleep k).clock s = s.pollTime (k - 1) := rfl
    have hplace : (Moment.sleep k).place = 2 * k + 3 := rfl
    have hk : n + 1 ≤ k := Nat.not_lt.1 fun hlt => by
      have hmono := pollTime_mono s (show k - 1 ≤ n by omega)
      omega
    rcases Nat.lt_or_eq_of_le hk with hlt | rfl
    · exact .inr (.inr (.inr (follows_sleep hlt)))
    · exact .inr (.inl rfl)
  | time t =>
    have hclock : (Moment.time t).clock s = t := rfl
    have hplace : (Moment.time t).place = 1 := rfl
    have hbegun : s.pollTime n < t := by omega
    by_cases hle : t ≤ s.pollTime (n + 1)
    · exact .inr (.inr (.inl ⟨t, rfl, hbegun, hle⟩))
    · exact .inr (.inr (.inr (follows_time (Nat.not_le.1 hle))))

/-- A moment comes before the agent is told, while it is told, or later. -/
theorem kinds_zero (s : Settings) (hc : m.Counted) :
    m.PrecedesFiring ∨ m = .firing ∨ m.Follows s 0 := by
  cases m with
  | start => exact .inl (.inl rfl)
  | firing => exact .inr (.inl rfl)
  | query k =>
    have hk : 1 ≤ k := hc
    rcases Nat.lt_or_eq_of_le hk with hlt | rfl
    · exact .inr (.inr (follows_query hlt))
    · exact .inl (.inr (.inl rfl))
  | sleep k => exact .inr (.inr (follows_sleep hc))
  | time t =>
    rcases Nat.eq_zero_or_pos t with rfl | hpos
    · exact .inl (.inr (.inr rfl))
    · exact .inr (.inr (follows_time (by rw [pollTime_zero]; exact hpos)))

/-- **The kinds of moments**: before the agent is told, while it is told, behind the first `N`
    rounds, or in one of these, with its poll, at the beginning of its sleep, or in it. -/
theorem kinds (s : Settings) (hc : m.Counted) : ∀ N,
    m.PrecedesFiring ∨ m = .firing ∨ m.Follows s N ∨
      ∃ n < N, m = .query (n + 2) ∨ m = .sleep (n + 1) ∨
        ∃ t, m = .time t ∧ s.pollTime n < t ∧ t ≤ s.pollTime (n + 1)
  | 0 => by
    rcases kinds_zero s hc with hearly | hfiring | hf
    · exact .inl hearly
    · exact .inr (.inl hfiring)
    · exact .inr (.inr (.inl hf))
  | N + 1 => by
    rcases kinds s hc N with hearly | hfiring | hf | ⟨n, hn, hkind⟩
    · exact .inl hearly
    · exact .inr (.inl hfiring)
    · rcases hf.next with hquery | hsleep | htime | hf
      · exact .inr (.inr (.inr ⟨N, Nat.lt_succ_self N, .inl hquery⟩))
      · exact .inr (.inr (.inr ⟨N, Nat.lt_succ_self N, .inr (.inl hsleep)⟩))
      · exact .inr (.inr (.inr ⟨N, Nat.lt_succ_self N, .inr (.inr htime)⟩))
      · exact .inr (.inr (.inl hf))
    · exact .inr (.inr (.inr ⟨n, Nat.lt_succ_of_lt hn, hkind⟩))

end Moment

/-! ## 2. The first value -/

/-- What is sent at a moment. -/
def Signals.sentAt (signals : Signals) : Moment → List Sent
  | .start => signals.atStart
  | .query k => signals.inQuery k
  | .firing => signals.inFiring
  | .sleep k => signals.inSleep k
  | .time t => (signals.atTimes.filter (·.1 = t)).map (·.2)

/-- **The first value is sent at the moment**: nothing is sent before, and anything may be sent
    behind it. -/
structure FirstValue (s : Settings) (w : Surroundings) (m : Moment) : Prop where
  counted : m.Counted
  fresh : ∃ capacity, w.inbox = some { capacity }
  rising : w.signals.atTimes.Pairwise fun p q => p.1 ≤ q.1
  sent : ∃ rest, w.signals.sentAt m = .value :: rest
  unsent : ∀ m' : Moment, m'.Counted → m'.Before s m → w.signals.sentAt m' = []

namespace FirstValue

theorem quiet (h : FirstValue s w m) : w.unsignalled.Quiet := by
  obtain ⟨capacity, hi⟩ := h.fresh
  exact Surroundings.quiet_unsignalled hi

/-- Nothing is due at a time before the moment. -/
theorem not_before (h : FirstValue s w m) {t : Nat} {e : Sent} (hp : (t, e) ∈ w.signals.atTimes) :
    ¬ (Moment.time t).Before s m := by
  intro hbefore
  have hnil : (w.signals.atTimes.filter (·.1 = t)).map (·.2) = [] :=
    h.unsent (.time t) trivial hbefore
  have hmem : (t, e) ∈ w.signals.atTimes.filter (·.1 = t) := by
    simpa using hp
  rw [List.map_eq_nil_iff.1 hnil] at hmem
  cases hmem

/-- What is due is due behind the polls that the moment follows. -/
theorem lt_due (h : FirstValue s w m) (hf : m.Follows s n) {q : Nat × Sent}
    (hq : q ∈ w.signals.atTimes) : s.pollTime n < q.1 := by
  refine Nat.not_le.1 fun hle => h.not_before hq (hf.before hle ?_)
  show 1 ≤ 2 * n + 3
  omega

/-- A value that is sent at a time is the first thing that is due. -/
theorem due_of_time {t : Nat} (h : FirstValue s w (.time t)) :
    ∃ later, w.signals.atTimes = (t, .value) :: later := by
  obtain ⟨rest, hsent⟩ := h.sent
  have hsent : (w.signals.atTimes.filter (·.1 = t)).map (·.2) = .value :: rest := hsent
  have hrising := h.rising
  have hnot {q : Nat × Sent} (hq : q ∈ w.signals.atTimes) : t ≤ q.1 :=
    Nat.not_lt.1 fun hlt => h.not_before hq (.inl hlt)
  cases hdue : w.signals.atTimes with
  | nil =>
    rw [hdue] at hsent
    cases hsent
  | cons q later =>
    obtain ⟨t', e⟩ := q
    rw [hdue] at hsent hrising hnot
    have hle : t ≤ t' := hnot List.mem_cons_self
    rcases Nat.lt_or_eq_of_le hle with hlt | rfl
    · -- the list rises, so nothing in it is due at `t`
      have hnone : ((t', e) :: later).filter (·.1 = t) = [] := by
        refine List.filter_eq_nil_iff.2 fun q hq => ?_
        have hge : t' ≤ q.1 := by
          rcases List.mem_cons.1 hq with rfl | hq
          · exact Nat.le_refl _
          · exact (List.pairwise_cons.1 hrising).1 q hq
        have hne : q.1 ≠ t := by omega
        simpa using hne
      rw [hnone] at hsent
      cases hsent
    · have he : e = .value := by simpa using congrArg List.head? hsent
      exact ⟨later, by rw [he]⟩

end FirstValue

end RevisionWatch.Watch
