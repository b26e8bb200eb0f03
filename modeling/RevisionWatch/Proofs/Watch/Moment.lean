import RevisionWatch.Proofs.Watch.Rounds
/-!
# One value sent to a watch

`Moment` names the points of a watch at which a single value can be sent to stop it, and
`Moment.signals` is the plan that sends it there. The invariant `Attends` says that once the moment
is past the value lies in the inbox. It holds at the start and is kept by every step, so a watch
that goes on has not been sent the value yet, and two things follow for a watch that has ended:

* a value sent before the agent is told keeps it from being told (`trigger_of_came`);
* a watch that has been sent the value is cancelled, or fails, or was sent it during its last query
  (`ending_of_came`), which is the one point behind the last look at the inbox.
-/

namespace RevisionWatch.Watch

/-- A point of a watch. Queries and sleeps are counted from one, and a value that comes with a sleep
    comes at its beginning; later points of a sleep are given by the time. -/
inductive Moment where
  | start
  | query (k : Nat)
  | firing
  | sleep (k : Nat)
  | time (t : Nat)
deriving DecidableEq, Repr

namespace Moment

/-- The value alone, sent at the moment. -/
def signals : Moment → Signals
  | .start => { atStart := [.value] }
  | .query k => { inQuery := fun n => if n = k then [.value] else [] }
  | .firing => { inFiring := [.value] }
  | .sleep k => { inSleep := fun n => if n = k then [.value] else [] }
  | .time t => { atTimes := [(t, .value)] }

/-- A run under way has come to the moment. -/
def Past (r : Run) : Moment → Prop
  | .start => True
  | .query k => 1 ≤ k ∧ k ≤ r.queries
  | .firing => r.trigger.isSome = true
  | .sleep k => 1 ≤ k ∧ k ≤ r.sleeps
  | .time t => t ≤ r.clock

/-- A watch that has ended came to the moment. -/
def Came (rep : Report) : Moment → Prop
  | .start => True
  | .query k => 1 ≤ k ∧ k ≤ rep.queries
  | .firing => rep.trigger.isSome = true
  | .sleep k => 1 ≤ k ∧ k ≤ rep.sleeps
  | .time t => t ≤ rep.elapsedMillis

/-- The moment lies before the agent is told. -/
def PrecedesFiring (m : Moment) : Prop :=
  m = .start ∨ m = .query 1 ∨ m = .time 0

instance (rep : Report) (m : Moment) : Decidable (m.Came rep) := by
  cases m <;> unfold Came <;> infer_instance

theorem came_report (s : Settings) (o : Outcome) (r : Run) (m : Moment) :
    m.Came (r.report s o) ↔ m.Past r := by
  cases m <;> simp [Came, Past]

/-- What is still due at a time, the value being all that is sent. -/
def due (clock : Nat) : Moment → List (Nat × Sent)
  | .time t => if t ≤ clock then [] else [(t, .value)]
  | _ => []

end Moment

namespace Run

variable {s : Settings} {w : Surroundings} {b p : Package} {r r' : Run} {m : Moment} {P Q : Prop}

/-! ## 1. The inbox -/

/-- The watch listens to an open channel, and has been sent a value if `P`. -/
def Hears (P : Prop) (r : Run) : Prop :=
  ∃ i, r.inbox = some i ∧ i.closed = false ∧ (P → 0 < i.unread)

theorem Hears.isAsked (h : r.Hears P) (hp : P) : r.isAsked = true := by
  obtain ⟨i, hi, -, hu⟩ := h
  exact isAsked_iff.2 ⟨i, hi, hu hp⟩

theorem Hears.mono (h : r.Hears P) (hqp : Q → P) : r.Hears Q := by
  obtain ⟨i, hi, ho, hu⟩ := h
  exact ⟨i, hi, ho, fun hq => hu (hqp hq)⟩

theorem Hears.congr (h : r.Hears P) (hi : r'.inbox = r.inbox) : r'.Hears P := by
  obtain ⟨i, hr, ho, hu⟩ := h
  exact ⟨i, hi.trans hr, ho, hu⟩

theorem Hears.push_value (h : r.Hears P) : (r.push [.value]).Hears Q := by
  obtain ⟨i, hi, ho, -⟩ := h
  refine ⟨{ i with unread := i.unread + 1 }, ?_, ho, fun _ => Nat.succ_pos _⟩
  simp [Run.push, hi, Inbox.push, ho]

theorem Hears.push_nil (h : r.Hears P) : (r.push []).Hears P := by
  rw [Run.push_nil]
  exact h

/-- A plan that may send the value here. -/
theorem Hears.push_ite (h : r.Hears P) {c : Prop} [Decidable c] (hq : Q → c ∨ P) :
    (r.push (if c then [.value] else [])).Hears Q := by
  split
  · exact h.push_value
  · rename_i hc
    exact h.push_nil.mono fun q => (hq q).resolve_left hc

/-! ## 2. The invariant -/

/-- **The value lies in the inbox once its moment is past**, and is due as long as it is not. -/
structure Attends (m : Moment) (r : Run) : Prop where
  hears : r.Hears (m.Past r)
  due : r.due = m.due r.clock

theorem Attends.isAsked (h : r.Attends m) (hm : m.Past r) : r.isAsked = true :=
  h.hears.isAsked hm

theorem Attends.start {capacity : Nat} (hi : w.inbox = some { capacity })
    (hs : w.signals = m.signals) : (start w).Attends m := by
  have hfresh : ({ inbox := w.inbox, due := m.due 0 } : Run).Hears False :=
    ⟨{ capacity }, hi, rfl, False.elim⟩
  unfold Run.start
  rw [hs]
  cases m with
  | start => exact ⟨hfresh.push_value, rfl⟩
  | query k =>
    exact ⟨hfresh.push_nil.mono fun h => Nat.not_succ_le_zero 0 (Nat.le_trans h.1 h.2), rfl⟩
  | firing => exact ⟨hfresh.push_nil.mono Bool.false_ne_true, rfl⟩
  | sleep k =>
    exact ⟨hfresh.push_nil.mono fun h => Nat.not_succ_le_zero 0 (Nat.le_trans h.1 h.2), rfl⟩
  | time t =>
    cases t with
    | zero => exact ⟨hfresh.push_value, rfl⟩
    | succ t => exact ⟨hfresh.push_nil.mono fun h => absurd h (Nat.not_succ_le_zero t), rfl⟩

theorem Attends.asked (hs : w.signals = m.signals) (h : r.Attends m) :
    (r.asked w).Attends m := by
  have hn : (({ r with queries := r.queries + 1 }).note .asked).Hears (m.Past r) :=
    h.hears.congr rfl
  refine ⟨?_, h.due⟩
  unfold Run.asked
  rw [hs]
  cases m with
  | query k =>
    refine hn.push_ite fun hq => ?_
    have hk : 1 ≤ k ∧ k ≤ r.queries + 1 := hq
    by_cases hlast : r.queries + 1 = k
    · exact .inl hlast
    · exact .inr ⟨hk.1, by omega⟩
  | _ => exact hn.push_nil

theorem Attends.unchanged (hs : w.signals = m.signals) (h : r.Attends m) (p : Package) :
    (r.unchanged w p).Attends m := by
  have ha := h.asked hs
  rcases unchanged_cases w p r with hu | hu
  · rw [hu]
    exact ⟨by cases m <;> exact ha.hears.congr rfl, ha.due⟩
  · rw [hu]
    exact ⟨by cases m <;> exact ha.hears.congr rfl, ha.due⟩

theorem Attends.grounded (hs : w.signals = m.signals) (h : r.Attends m) (p : Package) :
    (r.grounded w p).Attends m := by
  have ha := h.asked hs
  exact ⟨by cases m <;> exact ha.hears.congr rfl, ha.due⟩

theorem Attends.told (hs : w.signals = m.signals) (h : r.Attends m) : (r.told w).Attends m := by
  have hn : (({ r with trigger := some w.firing.toOutcome }).note
      (.fired w.firing.toOutcome)).Hears (m.Past r) := h.hears.congr rfl
  have hf : (r.fire w).Hears (m.Past (r.told w)) := by
    unfold Run.fire
    rw [hs]
    cases m with
    | firing => exact hn.push_value
    | _ => exact hn.push_nil
  exact ⟨hf.congr rfl, h.due⟩

/-- The value arrives with a sleep, if its moment is the beginning of that sleep. -/
theorem Attends.resting (hs : w.signals = m.signals) (h : r.Attends m) :
    (r.resting w).Attends m := by
  have hn : (({ r with sleeps := r.sleeps + 1 }).note .slept).Hears (m.Past r) :=
    h.hears.congr rfl
  refine ⟨?_, h.due⟩
  unfold Run.resting
  rw [hs]
  cases m with
  | sleep k =>
    refine hn.push_ite fun hq => ?_
    have hk : 1 ≤ k ∧ k ≤ r.sleeps + 1 := hq
    by_cases hlast : r.sleeps + 1 = k
    · exact .inl hlast
    · exact .inr ⟨hk.1, by omega⟩
  | _ => exact hn.push_nil

/-- A sleep in which nothing is due is slept to its end. -/
theorem overhear_nil (wake : Nat) (hd : r.due = []) : overhear wake r.due r = (none, r) := by
  rw [hd]
  unfold Run.overhear
  rw [← hd]

/-- The value is due later than the sleep lasts. -/
theorem overhear_later {t wake : Nat} (ht : wake < t) (hd : r.due = [(t, .value)]) :
    overhear wake r.due r = (none, r) := by
  rw [hd]
  unfold Run.overhear
  rw [if_neg (Nat.not_le.2 ht), ← hd]

/-- The value is due before the sleep would end, which wakes the watch, or at its very end. -/
theorem overhear_now {t wake : Nat} (ht : t ≤ wake) (hh : r.Hears P)
    (hd : r.due = [(t, .value)]) : overhear wake r.due r =
      (if t < wake then some t else none, { r.push [.value] with due := [] }) := by
  have hasked : (r.push [.value]).isAsked = true := (hh.push_value (Q := True)).isAsked trivial
  rw [hd]
  unfold Run.overhear
  simp only [ht, if_true, hasked, Bool.true_and]
  split <;> simp_all [Run.overhear]

/-- **A sleep keeps the invariant**, whether it is slept to its end or not. -/
theorem Attends.sleep (hs : w.signals = m.signals) (h : r.Attends m) (s : Settings) :
    (r.sleep s w).2.Attends m := by
  have hr := h.resting hs
  cases hask : (r.resting w).isAsked with
  | true =>
    rw [sleep_asked s hask]
    exact hr
  | false =>
    have hnot : ¬ m.Past (r.resting w) := fun hp => by
      rw [hr.isAsked hp] at hask
      cases hask
    have hdue : r.due = (r.resting w).due := rfl
    rw [sleep_unasked s hask, hdue]
    cases m with
    | time t =>
      have hlt : r.clock < t := Nat.not_le.1 hnot
      have hd : (r.resting w).due = [(t, .value)] := by
        rw [hr.due]
        exact if_neg hnot
      by_cases ht : t ≤ r.wake s
      · rw [overhear_now ht hr.hears hd]
        by_cases hlt' : t < r.wake s
        · rw [if_pos hlt']
          refine ⟨hr.hears.push_value.congr rfl, ?_⟩
          show [] = if t ≤ max r.clock t then [] else [(t, Sent.value)]
          rw [if_pos (Nat.le_max_right _ _)]
        · rw [if_neg hlt']
          refine ⟨hr.hears.push_value.congr rfl, ?_⟩
          show [] = if t ≤ r.wake s then [] else [(t, Sent.value)]
          rw [if_pos ht]
      · rw [overhear_later (Nat.not_le.1 ht) hd]
        refine ⟨(hr.hears.congr rfl).mono fun hp => absurd hp ht, ?_⟩
        show (r.resting w).due = if t ≤ r.wake s then [] else [(t, Sent.value)]
        rw [hd, if_neg ht]
    | _ =>
      rw [overhear_nil _ hr.due]
      exact ⟨hr.hears.congr rfl, hr.due⟩

theorem Attends.round (hs : w.signals = m.signals) (h : r.Attends m)
    (hr : Round s w b r none r') : r'.Attends m := by
  cases hr with
  | slept p _ _ _ _ _ _ => exact (h.unchanged hs p).sleep hs s

theorem Attends.reached (hs : w.signals = m.signals) {r₀ : Run} (h : r₀.Attends m)
    (hr : Reached s w b r₀ r) : r.Attends m := by
  induction hr with
  | start => exact h
  | step r₁ r₂ _ hround ih => exact ih.round hs hround

/-! ## 3. The end -/

/-- Between two looks at the inbox only a query can bring the moment. -/
theorem eq_query_of_past {r r' : Run} (hnot : ¬ m.Past r) (hpast : m.Past r')
    (hq : r'.queries = r.queries + 1) (hs : r'.sleeps = r.sleeps) (hc : r'.clock = r.clock)
    (ht : r'.trigger = r.trigger) : m = .query r'.queries := by
  cases m with
  | query k =>
    have h : 1 ≤ k ∧ k ≤ r'.queries := hpast
    have hlt : r.queries < k := Nat.lt_of_not_le fun hle => hnot ⟨h.1, hle⟩
    rw [show k = r'.queries by omega]
  | start => exact absurd trivial hnot
  | firing => exact absurd (show r.trigger.isSome = true from ht ▸ hpast) hnot
  | sleep k => exact absurd (show 1 ≤ k ∧ k ≤ r.sleeps from hs ▸ hpast) hnot
  | time t => exact absurd (show t ≤ r.clock from hc ▸ hpast) hnot

/-- A round that ends a watch once the moment is past: it cancels the watch, or its query is the
    moment. -/
theorem Attends.ends {o : Outcome} (h : r.Attends m) (hr : Round s w b r (some o) r')
    (hpast : m.Past r') : o = .cancelled ∨ m = .query r'.queries := by
  have hnot : r.isAsked = false → ¬ m.Past r := fun hf hp => by
    rw [h.isAsked hp] at hf
    cases hf
  cases hr with
  | stopped hask => exact .inl rfl
  | unanswered e hask ha => exact .inr (eq_query_of_past (hnot hask) hpast rfl rfl rfl rfl)
  | done p hask ha hv => exact .inr (eq_query_of_past (hnot hask) hpast rfl rfl rfl rfl)
  | wrong p e hask ha hv => exact .inr (eq_query_of_past (hnot hask) hpast rfl rfl rfl rfl)
  | pollsUsedUp p hask ha hv hm =>
    obtain ⟨hclock, hqueries, -, hsleeps, -, -, htrigger, -⟩ := r.unchanged_fields w p
    exact .inr (eq_query_of_past (hnot hask) hpast hqueries hsleeps hclock htrigger)
  | timeUsedUp p hask ha hv hm ht =>
    obtain ⟨hclock, hqueries, -, hsleeps, -, -, htrigger, -⟩ := r.unchanged_fields w p
    exact .inr (eq_query_of_past (hnot hask) hpast hqueries hsleeps hclock htrigger)
  | woken p hask ha hv hm ht hw => exact .inl rfl

end Run

section Ended

variable {s : Settings} {w : Surroundings} {m : Moment} {fuel capacity : Nat} {rep : Report}

/-- **The end of a watch that came to the moment**: it failed, or it was cancelled, or the moment
    was its last query. -/
theorem ending_of_came (hi : w.inbox = some { capacity }) (hs : w.signals = m.signals)
    (hrun : run? s w fuel = some rep) (hm : m.Came rep) :
    (∃ e, rep.outcome = .failed e) ∨ rep.outcome = .cancelled ∨ m = .query rep.queries := by
  obtain ⟨o, r, hc, rfl⟩ := run?_eq_some hrun
  obtain ⟨ho, hq, -⟩ := r.report_fields s o
  rw [ho, hq]
  have hpast := (Moment.came_report s o r m).1 hm
  have hstart : (Run.start w).Attends m := .start hi hs
  cases hc with
  | unanswered e ha => exact .inl ⟨e, rfl⟩
  | stopped p ha h => exact .inr (.inl rfl)
  | polled p ha h o r₁ r hr he =>
    have hr₁ := ((hstart.grounded hs p).told hs).reached hs hr
    exact .inr (hr₁.ends he hpast)

/-- **A value sent before the agent is told keeps it from being told.** -/
theorem trigger_of_came (hi : w.inbox = some { capacity }) (hs : w.signals = m.signals)
    (hrun : run? s w fuel = some rep) (hm : m.PrecedesFiring) : rep.trigger = none := by
  obtain ⟨o, r, hc, rfl⟩ := run?_eq_some hrun
  obtain ⟨-, -, -, -, -, ht, -⟩ := r.report_fields s o
  rw [ht]
  have hstart : (Run.start w).Attends m := .start hi hs
  cases hc with
  | unanswered e ha => rfl
  | stopped p ha h => rfl
  | polled p ha h o r₁ r hr he =>
    have hpast : m.Past ((Run.start w).grounded w p) := by
      rcases hm with rfl | rfl | rfl
      · trivial
      · exact ⟨Nat.le_refl 1, Nat.le_refl 1⟩
      · exact Nat.zero_le _
    rw [(hstart.grounded hs p).isAsked hpast] at h
    cases h

end Ended

end RevisionWatch.Watch
