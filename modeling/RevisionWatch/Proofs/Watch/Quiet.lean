import RevisionWatch.Proofs.Watch.Rounds
/-!
# A watch that nobody stops

`Surroundings.Quiet` says that no value is ever sent: not before the start, not during a query or a
sleep, not at any time; a channel may be there, and it may be closed. `Run.Calm` is what this means
for a run under way, and every step of a watch keeps it, so such a watch is never asked to stop
(`Calm.isAsked`) and sleeps every sleep to its end (`Calm.sleep`).
-/

namespace RevisionWatch.Watch

/-- No value is ever sent. -/
structure Surroundings.Quiet (w : Surroundings) : Prop where
  inbox : ∀ i, w.inbox = some i → i.unread = 0
  atStart : Sent.value ∉ w.signals.atStart
  inQuery : ∀ n, Sent.value ∉ w.signals.inQuery n
  inFiring : Sent.value ∉ w.signals.inFiring
  inSleep : ∀ n, Sent.value ∉ w.signals.inSleep n
  atTimes : ∀ p ∈ w.signals.atTimes, p.2 ≠ Sent.value

/-- A fresh channel on which nothing is sent is quiet. -/
theorem Surroundings.quiet_silent {w : Surroundings} {capacity : Nat}
    (hi : w.inbox = some { capacity }) (hs : w.signals = .silent) : w.Quiet := by
  refine ⟨fun i h => ?_, ?_, ?_, ?_, ?_, ?_⟩
  · cases hi.symm.trans h
    rfl
  all_goals
    rw [hs]
    simp [Signals.silent]

namespace Run

/-- No value lies in the inbox, and none is due. -/
structure Calm (r : Run) : Prop where
  inbox : ∀ i, r.inbox = some i → i.unread = 0
  due : ∀ p ∈ r.due, p.2 ≠ Sent.value

variable {s : Settings} {w : Surroundings} {r r' : Run}

/-- Calm is a matter of the inbox and of what is due. -/
theorem Calm.congr (h : r.Calm) (hi : r'.inbox = r.inbox) (hd : r'.due = r.due) : r'.Calm :=
  ⟨hi ▸ h.inbox, hd ▸ h.due⟩

theorem Calm.isAsked (h : r.Calm) : r.isAsked = false := by
  refine Bool.eq_false_iff.2 fun hask => ?_
  obtain ⟨i, hi, hpos⟩ := isAsked_iff.1 hask
  rw [h.inbox i hi] at hpos
  exact Nat.lt_irrefl 0 hpos

theorem unread_push {i : Inbox} {e : Sent} (he : e ≠ .value) :
    (i.push e).unread = i.unread := by
  cases e with
  | value => exact absurd rfl he
  | closing => rfl

theorem unread_foldl_push : ∀ (sent : List Sent) (i : Inbox), Sent.value ∉ sent →
    (sent.foldl Inbox.push i).unread = i.unread
  | [], _, _ => rfl
  | e :: sent, i, h => by
    have he : e ≠ .value := fun he => h (he ▸ List.mem_cons_self)
    have hs : Sent.value ∉ sent := fun hs => h (List.mem_cons_of_mem _ hs)
    rw [List.foldl_cons, unread_foldl_push sent _ hs, unread_push he]

theorem Calm.push (h : r.Calm) {sent : List Sent} (hs : Sent.value ∉ sent) :
    (r.push sent).Calm where
  inbox i hi := by
    obtain ⟨j, hj, rfl⟩ := Option.map_eq_some_iff.1 hi
    rw [unread_foldl_push sent j hs]
    exact h.inbox j hj
  due := h.due

theorem Calm.start (hq : w.Quiet) : (start w).Calm := by
  have hn : Sent.value ∉ w.signals.atStart ++
      (w.signals.atTimes.takeWhile (·.1 = 0)).map (·.2) := by
    intro h
    rcases List.mem_append.1 h with h | h
    · exact hq.atStart h
    · obtain ⟨p, hp, he⟩ := List.mem_map.1 h
      exact hq.atTimes p (List.takeWhile_subset _ hp) he
  refine Calm.push ⟨fun i hi => hq.inbox i hi, fun p hp => ?_⟩ hn
  exact hq.atTimes p (List.mem_of_mem_drop hp)

theorem Calm.asked (hq : w.Quiet) (h : r.Calm) : (r.asked w).Calm := by
  have hn : (({ r with queries := r.queries + 1 }).note .asked).Calm := h.congr rfl rfl
  exact hn.push (hq.inQuery _)

theorem Calm.unchanged (hq : w.Quiet) (h : r.Calm) (p : Package) : (r.unchanged w p).Calm := by
  obtain ⟨hi, hd⟩ := unchanged_inbox w p r
  exact (h.asked hq).congr hi hd

theorem Calm.grounded (hq : w.Quiet) (h : r.Calm) (p : Package) : (r.grounded w p).Calm :=
  (h.asked hq).congr rfl rfl

theorem Calm.told (hq : w.Quiet) (h : r.Calm) : (r.told w).Calm := by
  have hn : (({ r with trigger := some w.firing.toOutcome }).note
      (.fired w.firing.toOutcome)).Calm := h.congr rfl rfl
  exact (hn.push hq.inFiring).congr rfl rfl

theorem Calm.overhear (wake : Nat) : ∀ (due : List (Nat × Sent)) {r : Run}, r.Calm →
    (∀ p ∈ due, p.2 ≠ Sent.value) →
    (overhear wake due r).1 = none ∧ (overhear wake due r).2.Calm
  | [], r, h, _ => ⟨rfl, h.inbox, fun _ hp => absurd hp List.not_mem_nil⟩
  | (t, sent) :: due, r, h, hd => by
    have hs : Sent.value ∉ [sent] := fun hm =>
      hd (t, sent) List.mem_cons_self (List.mem_singleton.1 hm).symm
    have hd' : ∀ p ∈ due, p.2 ≠ Sent.value := fun p hp => hd p (List.mem_cons_of_mem _ hp)
    unfold Run.overhear
    by_cases ht : t ≤ wake
    · have hc : (r.push [sent]).Calm := h.push hs
      simp only [ht, if_true, hc.isAsked, Bool.false_and, Bool.false_eq_true, if_false]
      exact Calm.overhear wake due hc hd'
    · simp only [ht, if_false]
      exact ⟨trivial, h.inbox, hd⟩

/-- **A calm run sleeps to the end of its sleep.** -/
theorem Calm.sleep (hq : w.Quiet) (h : r.Calm) (s : Settings) :
    (r.sleep s w).1 = false ∧ (r.sleep s w).2.Calm := by
  have hn : (({ r with sleeps := r.sleeps + 1 }).note .slept).Calm := h.congr rfl rfl
  have hc : (r.resting w).Calm := hn.push (hq.inSleep (r.sleeps + 1))
  obtain ⟨hnone, hcalm⟩ := hc.overhear (r.wake s) r.due h.due
  rw [sleep_unasked s hc.isAsked]
  rcases he : Run.overhear (r.wake s) r.due (r.resting w) with ⟨_ | t, r'⟩
  · rw [he] at hcalm
    exact ⟨rfl, hcalm.congr rfl rfl⟩
  · rw [he] at hnone
    cases hnone

theorem Calm.round {b : Package} (hq : w.Quiet) (h : r.Calm) (hr : Round s w b r none r') :
    r'.Calm := by
  cases hr with
  | slept p _ _ _ _ _ _ => exact ((h.unchanged hq p).sleep hq s).2

theorem Calm.reached {b : Package} {r₀ : Run} (hq : w.Quiet) (h : r₀.Calm)
    (hr : Reached s w b r₀ r) : r.Calm := by
  induction hr with
  | start => exact h
  | step r₁ r₂ _ hround ih => exact ih.round hq hround

end Run

/-- **A watch that nobody stops is not cancelled.** -/
theorem not_cancelled_of_quiet {s : Settings} {w : Surroundings} {fuel : Nat} {rep : Report}
    (hq : w.Quiet) (h : run? s w fuel = some rep) : rep.outcome ≠ .cancelled := by
  obtain ⟨o, r, hc, rfl⟩ := run?_eq_some h
  rw [(r.report_fields s o).1]
  have hstart := Run.Calm.start hq
  cases hc with
  | unanswered e ha => exact fun h => by cases h
  | stopped p ha hask =>
    rw [(hstart.grounded hq p).isAsked] at hask
    cases hask
  | polled p ha hask o r₁ r hr he =>
    have hr₁ := ((hstart.grounded hq p).told hq).reached hq hr
    cases he with
    | stopped hask' =>
      rw [hr₁.isAsked] at hask'
      cases hask'
    | woken p hask' ha hv hm ht hw =>
      rw [((hr₁.unchanged hq p).sleep hq s).1] at hw
      cases hw
    | _ => exact fun h => by cases h

end RevisionWatch.Watch
