import RevisionWatch.Proofs.Watch.Unsent
import Mathlib.Tactic.IntervalCases
/-!
# What the first value does

A watch to which nothing was sent until a value came ends in one of three ways: it is stopped at its
next look at the inbox (`Arrived.stopped`), woken from its sleep (`Arrived.woken`), or decided by an
answer, and then it is the watch that would have been without the value (`Arrived.decided`). Which
one it is depends on the moment (`Effect`), and `effect_of_first_value` says so for every moment:
neither is the agent told nor a poll put behind the value.
-/

namespace RevisionWatch.Watch

variable {mach : Machine} {s : Settings} {w : Surroundings} {b : Package} {m : Moment}
  {r r' : Run} {n : Nat}

/-! ## 1. Three ends -/

/-- What is known of a watch that was stopped before the agent was told. -/
structure StoppedEarly (rep : Report) : Prop where
  outcome : rep.outcome = .cancelled
  queries : rep.queries = 1
  polls : rep.polls = 0
  sleeps : rep.sleeps = 0
  elapsed : rep.elapsedMillis = 0
  trigger : rep.trigger = none
  firings : rep.firings = 0

/-- What is known of a watch that was stopped behind `k` polls, with the agent told. -/
structure StoppedAfter (w : Surroundings) (k elapsed : Nat) (rep : Report) : Prop where
  outcome : rep.outcome = .cancelled
  queries : rep.queries = k + 1
  polls : rep.polls = k
  sleeps : rep.sleeps = k
  elapsed : rep.elapsedMillis = elapsed
  trigger : rep.trigger = some w.firing.toOutcome
  firings : rep.firings = 1

namespace Arrived

theorem course {o : Outcome} (h : Arrived s w b n r) (he : Run.Round s w b r (some o) r') :
    Run.Course s w o r' := by
  have ha : (w.answers 0).package s = .ok b := by
    rw [h.baseline]
    rfl
  exact .polled b ha h.unasked o r r' h.reached he

/-- A watch that is asked to stop before it polls is stopped there. -/
theorem stopped (h : Arrived s w b n r) (hI : 0 < s.intervalMillis) (hask : r.isAsked = true) :
    StoppedAfter w n (s.pollTime n) (run s w) := by
  rw [(h.course (.stopped hask)).run_eq hI]
  obtain ⟨ho, hqueries, hpolls, hsleeps, helapsed, htrigger, hfirings⟩ :=
    r.report_fields s .cancelled
  exact ⟨ho, hqueries.trans h.queries, hpolls.trans h.polls, hsleeps.trans h.sleeps,
    helapsed.trans h.clock, htrigger.trans h.trigger, hfirings.trans h.firings⟩

/-- A watch that is woken from its sleep is stopped there. -/
theorem woken {t : Nat} (h : Arrived s w b n r) (hI : 0 < s.intervalMillis)
    (hask : r.isAsked = false) (hd : ¬ Deciding s w b.revision (n + 1))
    (hwoken : ∀ p, ((r.unchanged w p).sleep s w).1 = true ∧
      ((r.unchanged w p).sleep s w).2.clock = t) : StoppedAfter w (n + 1) t (run s w) := by
  obtain ⟨p, ha, hv, hm, ht⟩ := h.toPaced.undecided hd
  obtain ⟨hs, hclock⟩ := hwoken p
  have hon := Run.sleptOn s w p r
  rw [(h.course (.woken p hask ha hv hm ht hs)).run_eq hI]
  obtain ⟨ho, hqueries, hpolls, hsleeps, helapsed, htrigger, hfirings⟩ :=
    ((r.unchanged w p).sleep s w).2.report_fields s .cancelled
  exact {
    outcome := ho
    queries := by rw [hqueries, hon.queries, h.queries]
    polls := by rw [hpolls, hon.polls, h.polls]
    sleeps := by rw [hsleeps, hon.sleeps, h.sleeps]
    elapsed := helapsed.trans hclock
    trigger := by rw [htrigger, hon.trigger, h.trigger]
    firings := by rw [hfirings, hon.firings, h.firings] }

/-- An answer that decides does so as without the signals. -/
theorem decided (h : Arrived s w b n r) (hI : 0 < s.intervalMillis) (hq : w.unsignalled.Quiet)
    (hask : r.isAsked = false) (hd : Deciding s w b.revision (n + 1)) :
    run s w = run s w.unsignalled ∧ (run s w).queries = n + 2 := by
  obtain ⟨r', he, hend⟩ := h.toPaced.ends hask hd
  constructor
  · exact run_unsignalled hI hq (h.course he) (decides_ne_cancelled _ _ _)
  · rw [(h.course he).run_eq hI, (r'.report_fields s _).2.1, hend.queries, h.queries]

end Arrived

/-! ## 2. The end for every moment -/

namespace FirstValue

variable {t : Nat}

/-- A value sent while the agent is told stops the watch before its first poll. -/
theorem stopped_of_firing (h : FirstValue s w .firing) (hI : 0 < s.intervalMillis)
    (hb : w.answers 0 = .found b) : StoppedAfter w 0 0 (run s w) := by
  have hstopped := (h.arrived_zero hb (.inl rfl)).stopped hI h.isAsked_told
  rw [pollTime_zero] at hstopped
  exact hstopped

/-- A value sent with a poll that does not decide wakes the watch from its sleep at once. -/
theorem woken_of_query (h : FirstValue s w (.query (n + 2))) (hI : 0 < s.intervalMillis)
    (hb : w.answers 0 = .found b)
    (hd : ∀ j, 1 ≤ j → j ≤ n + 1 → ¬ Deciding s w b.revision j) :
    StoppedAfter w (n + 1) (s.pollTime n) (run s w) := by
  obtain ⟨capacity, hi⟩ := h.fresh
  obtain ⟨r, harrived, hunsent⟩ := h.arrived hb n (Moment.follows_query (Nat.le_refl _))
    fun j hpos hj => hd j hpos (Nat.le_succ_of_le hj)
  exact harrived.woken hI (hunsent.isAsked hi) (hd (n + 1) (by omega) (Nat.le_refl _))
    fun p => h.sleep_of_query harrived.toPaced hunsent p

/-- A value sent at the beginning of a sleep wakes the watch at once. -/
theorem woken_of_sleep (h : FirstValue s w (.sleep (n + 1))) (hI : 0 < s.intervalMillis)
    (hb : w.answers 0 = .found b)
    (hd : ∀ j, 1 ≤ j → j ≤ n + 1 → ¬ Deciding s w b.revision j) :
    StoppedAfter w (n + 1) (s.pollTime n) (run s w) := by
  obtain ⟨capacity, hi⟩ := h.fresh
  obtain ⟨r, harrived, hunsent⟩ := h.arrived hb n (Moment.follows_sleep (Nat.le_refl _))
    fun j hpos hj => hd j hpos (Nat.le_succ_of_le hj)
  exact harrived.woken hI (hunsent.isAsked hi) (hd (n + 1) (by omega) (Nat.le_refl _))
    fun p => h.sleep_of_begun harrived.toPaced hunsent p

/-- A value sent at a time in a sleep wakes the watch then; at the very end of the sleep the watch
    is stopped before its next poll. -/
theorem woken_of_time (h : FirstValue s w (.time t)) (hI : 0 < s.intervalMillis)
    (hb : w.answers 0 = .found b) (hlt : s.pollTime n < t) (hle : t ≤ s.pollTime (n + 1))
    (hd : ∀ j, 1 ≤ j → j ≤ n + 1 → ¬ Deciding s w b.revision j) :
    StoppedAfter w (n + 1) t (run s w) := by
  obtain ⟨capacity, hi⟩ := h.fresh
  obtain ⟨r, harrived, hunsent⟩ := h.arrived hb n (Moment.follows_time hlt)
    fun j hpos hj => hd j hpos (Nat.le_succ_of_le hj)
  have hd' : ¬ Deciding s w b.revision (n + 1) := hd (n + 1) (by omega) (Nat.le_refl _)
  have hask := hunsent.isAsked hi
  have hsleep (p : Package) := h.sleep_of_time harrived.toPaced hunsent p hlt
  rcases Nat.lt_or_eq_of_le hle with hbefore | hend
  · exact harrived.woken hI hask hd' fun p => (hsleep p).1 hbefore
  · obtain ⟨p, ha, hv, hm, htime⟩ := harrived.toPaced.undecided hd'
    obtain ⟨hslept, hasked⟩ := (hsleep p).2 hend
    rw [hend]
    exact (harrived.step (.slept p hask ha hv hm htime hslept)).stopped hI hasked

/-- **Behind the last look at the inbox the value comes too late**: the watch ends as it would have
    without. -/
theorem decided_of_follows (h : FirstValue s w m) (hI : 0 < s.intervalMillis)
    (hb : w.answers 0 = .found b) (hf : m.Follows s n)
    (hK : IsLeast {k | 1 ≤ k ∧ Deciding s w b.revision k} (n + 1)) :
    run s w = run s w.unsignalled ∧ (run s w).queries = n + 2 := by
  obtain ⟨capacity, hi⟩ := h.fresh
  obtain ⟨r, harrived, hunsent⟩ := h.arrived hb n hf (not_deciding_of_lt hK (Nat.lt_succ_self n))
  exact harrived.decided hI h.quiet (hunsent.isAsked hi) hK.1.2

/-- A value sent before the agent is told keeps it from being told. -/
theorem stopped_early (h : FirstValue s w m) (hI : 0 < s.intervalMillis)
    (hb : w.answers 0 = .found b) (hm : m.PrecedesFiring) : StoppedEarly (run s w) := by
  have ha : (w.answers 0).package s = .ok b := by
    rw [hb]
    rfl
  rw [(Run.Course.stopped b ha (h.isAsked_grounded hm)).run_eq hI]
  refine ⟨rfl, rfl, rfl, rfl, rfl, rfl, ?_⟩
  rw [Run.firings_report]
  exact (Run.firings_note ((Run.start w).informed w b) (.baseline b)).trans
    (Run.firings_asked w (Run.start w))

end FirstValue

/-- **What the first value makes of a watch** on a machine whose first poll that decides is poll `K`.
    Poll `k` is put at the time of `pollTime (k - 1)` and slept on until that of `pollTime k`. -/
structure Effect (mach : Machine) (s : Settings) (w : Surroundings) (b : Package) (K : Nat)
    (m : Moment) (rep : Report) : Prop where
  early : m.PrecedesFiring → StoppedEarly rep
  firing : m = .firing → StoppedAfter w 0 0 rep
  poll : ∀ k, 1 ≤ k → k ≤ K → m = .query (k + 1) →
    (¬ Deciding s w b.revision k → StoppedAfter w k (s.pollTime (k - 1)) rep) ∧
    (Deciding s w b.revision k → mach.run? s w.unsignalled s.pollsInTime = some (.ok rep))
  asleep : ∀ k, 1 ≤ k → k < K → m = .sleep k → StoppedAfter w k (s.pollTime (k - 1)) rep
  timed : ∀ k t, 1 ≤ k → k < K → s.pollTime (k - 1) < t → t ≤ s.pollTime k → m = .time t →
    StoppedAfter w k t rep
  late : m.Follows s (K - 1) → mach.run? s w.unsignalled s.pollsInTime = some (.ok rep)

/-- A watch that is as it would have been without the value is so on the machine. -/
theorem run?_unsignalled (hI : 0 < s.intervalMillis) (hs : s.InWords)
    (hm : mach.Carries s (run s w)) (h : run s w = run s w.unsignalled) :
    mach.run? s w.unsignalled s.pollsInTime = some (.ok (run s w)) := by
  rw [h] at hm ⊢
  exact Machine.run?_of_carries hs (run?_pollsInTime s w.unsignalled hI) hm

theorem FirstValue.effect {K : Nat} (h : FirstValue s w m) (hI : 0 < s.intervalMillis)
    (hs : s.InWords) (hm : mach.Carries s (run s w)) (hb : w.answers 0 = .found b)
    (hK : IsLeast {k | 1 ≤ k ∧ Deciding s w b.revision k} K) :
    Effect mach s w b K m (run s w) where
  early hm := h.stopped_early hI hb hm
  firing hm := by
    subst hm
    exact h.stopped_of_firing hI hb
  poll k hpos hle hat := by
    obtain ⟨n, rfl⟩ := Nat.exists_eq_add_of_le' hpos
    subst hat
    constructor
    · intro hnot
      refine h.woken_of_query hI hb fun j hj hjn hd => ?_
      have hKj := hK.2 ⟨hj, hd⟩
      exact hnot (show j = n + 1 by omega ▸ hd)
    · intro hd
      have hKn := hK.2 ⟨hpos, hd⟩
      obtain rfl : K = n + 1 := by omega
      exact run?_unsignalled hI hs hm
        (h.decided_of_follows hI hb (Moment.follows_query (Nat.le_refl _)) hK).1
  asleep k hpos hlt hm := by
    obtain ⟨n, rfl⟩ := Nat.exists_eq_add_of_le' hpos
    subst hm
    exact h.woken_of_sleep hI hb (not_deciding_of_lt hK hlt)
  timed k t hpos hlt hbegun hle hm := by
    obtain ⟨n, rfl⟩ := Nat.exists_eq_add_of_le' hpos
    subst hm
    exact h.woken_of_time hI hb hbegun hle (not_deciding_of_lt hK hlt)
  late hf := by
    obtain ⟨n, rfl⟩ := Nat.exists_eq_add_of_le' hK.1.1
    exact run?_unsignalled hI hs hm (h.decided_of_follows hI hb hf hK).1

/-- Without a baseline the value makes no difference. -/
theorem FirstValue.ungrounded (h : FirstValue s w m) (hI : 0 < s.intervalMillis)
    (hf : (w.answers 0).isFound = false) :
    Ungrounded s w (run s w) ∧ run s w = run s w.unsignalled := by
  cases ha : (w.answers 0).package s with
  | error e =>
    have hc : Run.Course s w (.failed e) ((Run.start w).asked w) := .unanswered e ha
    refine ⟨?_, run_unsignalled hI h.quiet hc (fun h => nomatch h)⟩
    rw [hc.run_eq hI]
    exact Watch.ungrounded ha
  | ok b =>
    rw [package_ok ha] at hf
    cases hf

/-- **Nothing is begun behind the value**: the agent is not told, and no poll is put. -/
theorem FirstValue.nothing_behind (h : FirstValue s w m) (hI : 0 < s.intervalMillis) :
    (m.Before s .firing → (run s w).trigger = none ∧ (run s w).firings = 0) ∧
      ∀ j, 2 ≤ j → m.Before s (.query j) → (run s w).queries < j := by
  cases hf : (w.answers 0).isFound with
  | false =>
    obtain ⟨hrep, -⟩ := h.ungrounded hI hf
    refine ⟨fun _ => ⟨hrep.trigger, hrep.firings⟩, fun j hj _ => ?_⟩
    rw [hrep.queries]
    exact hj
  | true =>
    obtain ⟨b, hb⟩ := found_of_isFound hf
    obtain ⟨K, hK, -⟩ := exists_first_deciding w b.revision hI
    obtain ⟨N, rfl⟩ := Nat.exists_eq_add_of_le' hK.1.1
    -- behind the telling of the agent, the last query is that of the round of the moment
    have hround {n : Nat} (hfollows : m.Follows s n) (hqueries : (run s w).queries = n + 2) :
        (m.Before s .firing → (run s w).trigger = none ∧ (run s w).firings = 0) ∧
          ∀ j, 2 ≤ j → m.Before s (.query j) → (run s w).queries < j := by
      refine ⟨fun hbefore => absurd hbefore hfollows.not_before_firing, fun j _ hbefore => ?_⟩
      rw [hqueries]
      exact hfollows.lt_of_before hbefore
    rcases Moment.kinds s h.counted N with hearly | rfl | hlast | ⟨n, hn, hkind⟩
    · have hrep := h.stopped_early hI hb hearly
      refine ⟨fun _ => ⟨hrep.trigger, hrep.firings⟩, fun j hj _ => ?_⟩
      rw [hrep.queries]
      exact hj
    · refine ⟨fun hbefore => ?_, fun j hj _ => ?_⟩
      · rcases hbefore with hlt | ⟨-, hlt⟩
        · exact absurd hlt (Nat.lt_irrefl _)
        · exact absurd hlt (Nat.lt_irrefl _)
      · rw [(h.stopped_of_firing hI hb).queries]
        exact hj
    · exact hround hlast (h.decided_of_follows hI hb hlast hK).2
    · have hundecided := not_deciding_of_lt hK (Nat.succ_lt_succ hn)
      rcases hkind with rfl | rfl | ⟨t, rfl, hlt, hle⟩
      · exact hround (Moment.follows_query (Nat.le_refl _))
          (h.woken_of_query hI hb hundecided).queries
      · exact hround (Moment.follows_sleep (Nat.le_refl _))
          (h.woken_of_sleep hI hb hundecided).queries
      · exact hround (Moment.follows_time hlt)
          (h.woken_of_time hI hb hlt hle hundecided).queries

/-- **The effect of the first value.** Whatever is answered, whatever comes of telling the agent,
    and whatever is sent behind the first value, a watch that sleeps between its polls ends on every
    machine that carries it. Without a baseline it fails as it would have without the value; with
    one, the moment of the value tells whether and when it is stopped, and if it is not it ends as
    it would have without. Neither is the agent told nor a poll put behind the value. -/
theorem effect_of_first_value (mach : Machine) (s : Settings) (w : Surroundings) (m : Moment)
    (hI : 0 < s.intervalMillis) (h : FirstValue s w m) (hs : s.InWords)
    (hm : mach.Carries s (run s w)) :
    ∃ rep, mach.run? s w s.pollsInTime = some (.ok rep) ∧
      ((w.answers 0).isFound = false → Ungrounded s w rep ∧
        mach.run? s w.unsignalled s.pollsInTime = some (.ok rep)) ∧
      (∀ b, w.answers 0 = .found b →
        ∃ K, IsLeast {k | 1 ≤ k ∧ Deciding s w b.revision k} K ∧ Effect mach s w b K m rep) ∧
      (m.Before s .firing → rep.trigger = none ∧ rep.firings = 0) ∧
      ∀ j, 2 ≤ j → m.Before s (.query j) → rep.queries < j := by
  have hrun := Machine.run?_of_carries hs (run?_pollsInTime s w hI) hm
  refine ⟨run s w, hrun, fun hf => ?_, fun b hb => ?_, h.nothing_behind hI⟩
  · obtain ⟨hungrounded, hsame⟩ := h.ungrounded hI hf
    exact ⟨hungrounded, run?_unsignalled hI hs hm hsame⟩
  · obtain ⟨K, hK, -⟩ := exists_first_deciding w b.revision hI
    exact ⟨K, hK, h.effect hI hs hm hb hK⟩

/-- The package stays at its revision; a value is sent in the third sleep and another one later,
    when the channel is closed as well. -/
private def stoppedInSleep : Surroundings where
  answers n := .found ⟨"phantom-agent", ⟨if n < 9 then 42 else 43, by split <;> decide⟩, none,
    .service true⟩
  firing := .outcome (.accepted 202)
  inbox := some { capacity := 4 }
  signals := { atTimes := [(12, .value), (30, .value), (30, .closing)] }

theorem effect_of_first_value_in_third_sleep :
    let s : Settings := ⟨"phantom-agent", 5, 60, none⟩
    0 < s.intervalMillis ∧ FirstValue s stoppedInSleep (.time 12) ∧ s.InWords ∧
      Machine.Carries .usual s (run s stoppedInSleep) ∧
      ∃ rep, Machine.usual.run? s stoppedInSleep s.pollsInTime = some (.ok rep) ∧
        StoppedAfter stoppedInSleep 3 12 rep ∧ rep.queries < 5 := by
  intro s
  have hs : s.InWords := fun _ hmax => nomatch hmax
  have hm : Machine.Carries .usual s (run s stoppedInSleep) :=
    ⟨⟨by decide +kernel, by decide +kernel⟩, by decide +kernel⟩
  have hfirst : FirstValue s stoppedInSleep (.time 12) := {
    counted := trivial
    fresh := ⟨4, rfl⟩
    rising := by decide
    sent := ⟨[], rfl⟩
    unsent := by
      intro m' hc hbefore
      cases m' with
      | time t =>
        have ht : t < 12 := by
          rcases hbefore with hlt | ⟨-, hlt⟩
          · exact hlt
          · exact absurd hlt (Nat.lt_irrefl _)
        interval_cases t <;> rfl
      | _ => rfl }
  obtain ⟨rep, hrun, -, hfound, -, hnone⟩ :=
    effect_of_first_value .usual s stoppedInSleep (.time 12) (by decide) hfirst hs hm
  obtain ⟨K, hK, heffect⟩ := hfound _ rfl
  have hlt : 3 < K := by
    obtain ⟨hpos, hd⟩ := hK.1
    have hsame (k : Nat) (hk : k ≤ 3) : stoppedInSleep.answers k = stoppedInSleep.answers 0 := by
      interval_cases k <;> rfl
    by_contra hle
    rcases hd with hne | ⟨_, hm, -⟩ | htime
    · exact hne _ (hsame K (Nat.not_lt.1 hle)) rfl
    · cases hm
    · have htime : 60 ≤ (K - 1) * 5 := htime
      omega
  exact ⟨by decide, hfirst, hs, hm, rep, hrun,
    heffect.timed 3 12 (by decide) hlt (by decide) (by decide) rfl,
    hnone 5 (by decide) (.inl (by decide))⟩

end RevisionWatch.Watch
