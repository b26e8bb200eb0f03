import RevisionWatch.Proofs.Watch.Pace
import RevisionWatch.Proofs.Watch.Quiet
/-!
# A watch and the same watch without the signals

What is sent to a watch reaches its inbox, and a watch looks at its inbox only to see whether it has
to stop. So a watch that was not stopped is the watch that would have been without the signals, to
the last entry of its journal (`run_unsignalled`). The two runs are kept side by side: they differ
in their inbox and in what is due (`Alike`), and every round but one that cancels keeps them so.
-/

namespace RevisionWatch.Watch

/-- The same surroundings, and nothing is sent. -/
def Surroundings.unsignalled (w : Surroundings) : Surroundings :=
  { w with signals := .silent }

theorem Surroundings.quiet_unsignalled {w : Surroundings} {capacity : Nat}
    (hi : w.inbox = some { capacity }) : w.unsignalled.Quiet :=
  Surroundings.quiet_silent (w := w.unsignalled) hi rfl

namespace Run

variable {s : Settings} {w w' : Surroundings} {b : Package} {r r' r₁ : Run} {o : Outcome}

/-! ## 1. Two runs side by side -/

/-- The second run is the first save what lies in the inbox and what is due. -/
def Alike (r r' : Run) : Prop :=
  ∃ i d, r' = { r with inbox := i, due := d }

theorem Alike.asked (h : Alike r r') : Alike (r.asked w) (r'.asked w') := by
  obtain ⟨i, d, rfl⟩ := h
  exact ⟨_, d, rfl⟩

theorem Alike.polled (h : Alike r r') (p : Package) :
    Alike (r.polled w p) (r'.polled w' p) := by
  obtain ⟨i, d, rfl⟩ := h
  exact ⟨_, d, rfl⟩

theorem Alike.note (h : Alike r r') (e : Event) : Alike (r.note e) (r'.note e) := by
  obtain ⟨i, d, rfl⟩ := h
  exact ⟨i, d, rfl⟩

theorem Alike.enter (h : Alike r r') (p : Phase) : Alike (r.enter p) (r'.enter p) := by
  obtain ⟨i, d, rfl⟩ := h
  exact ⟨i, d, rfl⟩

theorem Alike.unchanged (h : Alike r r') (p : Package) :
    Alike (r.unchanged w p) (r'.unchanged w' p) := by
  have hpolled : Alike (r.polled w p) (r'.polled w' p) := h.polled p
  have hphase : (r'.polled w' p).phase = (r.polled w p).phase := by
    obtain ⟨i, d, hi⟩ := hpolled
    rw [hi]
  unfold Run.unchanged
  dsimp only
  rw [hphase]
  split
  · exact hpolled.enter .polling
  · exact hpolled

theorem Alike.grounded (h : Alike r r') (p : Package) :
    Alike (r.grounded w p) (r'.grounded w' p) := by
  obtain ⟨i, d, rfl⟩ := h
  exact ⟨_, d, rfl⟩

theorem Alike.told (h : Alike r r') (hf : w'.firing = w.firing) :
    Alike (r.told w) (r'.told w') := by
  obtain ⟨i, d, rfl⟩ := h
  exact ⟨_, d, by unfold Run.told Run.fire; rw [hf]; rfl⟩

theorem alike_start (w w' : Surroundings) : Alike (start w) (start w') :=
  ⟨_, _, rfl⟩

/-- Two sleeps that end at the same time. -/
theorem Alike.sleep_of_clock (h : Alike r r')
    (hclock : (r'.sleep s w').2.clock = (r.sleep s w).2.clock) :
    Alike (r.sleep s w).2 (r'.sleep s w').2 := by
  obtain ⟨i, d, rfl⟩ := h
  obtain ⟨c, i₁, d₁, hframe, -⟩ := sleep_frame s w r
  obtain ⟨c', i₂, d₂, hframe', -⟩ := sleep_frame s w' { r with inbox := i, due := d }
  rw [hframe, hframe'] at hclock ⊢
  have hc : c' = c := hclock
  rw [hc]
  exact ⟨i₂, d₂, rfl⟩

/-- Two sleeps that are slept to their end take the same time. -/
theorem Alike.sleep (h : Alike r r') (hs : (r.sleep s w).1 = false)
    (hs' : (r'.sleep s w').1 = false) : Alike (r.sleep s w).2 (r'.sleep s w').2 := by
  refine h.sleep_of_clock ?_
  obtain ⟨i, d, rfl⟩ := h
  obtain ⟨c, i₁, d₁, hframe, hc⟩ := sleep_frame s w r
  obtain ⟨c', i₂, d₂, hframe', hc'⟩ := sleep_frame s w' { r with inbox := i, due := d }
  rw [hframe, hframe', hc hs, hc' hs']
  rfl

/-- The report does not tell them apart. -/
theorem Alike.report (h : Alike r r') (s : Settings) (o : Outcome) :
    r.report s o = r'.report s o := by
  obtain ⟨i, d, rfl⟩ := h
  cases o <;> rfl

/-- **A round is also one of the run beside it**, if neither is asked to stop or both are and, where
    the watch sleeps, both sleeps end alike. -/
theorem Alike.round {x : Option Outcome} (h : Alike r r') (ha : w'.answers = w.answers)
    (hask : r'.isAsked = r.isAsked) (hr : Round s w b r x r₁)
    (hsleep : r.isAsked = false → ∀ p,
      ((r.unchanged w p).sleep s w).1 = false ∨ x = some .cancelled →
      ((r'.unchanged w' p).sleep s w').1 = ((r.unchanged w p).sleep s w).1 ∧
        Alike ((r.unchanged w p).sleep s w).2 ((r'.unchanged w' p).sleep s w').2) :
    ∃ r₁', Round s w' b r' x r₁' ∧ Alike r₁ r₁' := by
  have hans {a : Except Error Package} (hp : (w.answers r.queries).package s = a) :
      (w'.answers r'.queries).package s = a := by
    obtain ⟨i, d, rfl⟩ := h
    rw [ha]
    exact hp
  have hpolls : r'.polls = r.polls := by
    obtain ⟨i, d, rfl⟩ := h
    rfl
  have hclock : r'.clock = r.clock := by
    obtain ⟨i, d, rfl⟩ := h
    rfl
  cases hr with
  | stopped h₀ => exact ⟨_, .stopped (hask.trans h₀), h⟩
  | unanswered e h₀ hp => exact ⟨_, .unanswered e (hask.trans h₀) (hans hp), h.asked⟩
  | done p h₀ hp hv =>
    exact ⟨_, .done p (hask.trans h₀) (hans hp) hv, hpolls ▸ (h.polled p).note _⟩
  | wrong p e h₀ hp hv => exact ⟨_, .wrong p e (hask.trans h₀) (hans hp) hv, h.polled p⟩
  | pollsUsedUp p h₀ hp hv hm =>
    exact ⟨_, .pollsUsedUp p (hask.trans h₀) (hans hp) hv (hpolls ▸ hm),
      hpolls ▸ (h.unchanged p).note _⟩
  | timeUsedUp p h₀ hp hv hm ht =>
    exact ⟨_, .timeUsedUp p (hask.trans h₀) (hans hp) hv (hpolls ▸ hm) (hclock ▸ ht),
      hpolls ▸ (h.unchanged p).note _⟩
  | woken p h₀ hp hv hm ht hs =>
    obtain ⟨hflag, halike⟩ := hsleep h₀ p (.inr rfl)
    exact ⟨_, .woken p (hask.trans h₀) (hans hp) hv (hpolls ▸ hm) (hclock ▸ ht)
      (hflag.trans hs), halike⟩
  | slept p h₀ hp hv hm ht hs =>
    obtain ⟨hflag, halike⟩ := hsleep h₀ p (.inl hs)
    exact ⟨_, .slept p (hask.trans h₀) (hans hp) hv (hpolls ▸ hm) (hclock ▸ ht)
      (hflag.trans hs), halike⟩

/-! ## 2. The watch without the signals -/

/-- **A round that does not stop the watch is also one without the signals.** -/
theorem Alike.round_unsignalled {x : Option Outcome} (hq : w.unsignalled.Quiet)
    (h : Alike r r') (hc : r'.Calm) (hr : Round s w b r x r₁) (hx : x ≠ some .cancelled) :
    ∃ r₁', Round s w.unsignalled b r' x r₁' ∧ Alike r₁ r₁' := by
  have hask : r'.isAsked = r.isAsked := by
    rw [hc.isAsked]
    cases hr with
    | stopped _ => exact absurd rfl hx
    | _ => exact Eq.symm ‹_›
  have ha : w.unsignalled.answers = w.answers := rfl
  refine h.round ha hask hr fun _ p hs => ?_
  have hslept := hs.resolve_right hx
  have hslept' := ((hc.unchanged hq p).sleep hq s).1
  exact ⟨hslept'.trans hslept.symm, (h.unchanged p).sleep hslept hslept'⟩

theorem Alike.reached {r₀ r₀' : Run} (hq : w.unsignalled.Quiet) (h : Alike r₀ r₀')
    (hc : r₀'.Calm) (hr : Reached s w b r₀ r) :
    ∃ r', Reached s w.unsignalled b r₀' r' ∧ Alike r r' ∧ r'.Calm := by
  induction hr with
  | start => exact ⟨r₀', .start, h, hc⟩
  | step r₁ r₂ _ hs ih =>
    obtain ⟨r₁', hreach, halike, hcalm⟩ := ih
    obtain ⟨r₂', hs', halike'⟩ := halike.round_unsignalled hq hcalm hs (fun h => nomatch h)
    exact ⟨r₂', .step _ _ hreach hs', halike', hcalm.round hq hs'⟩

/-- **A course that is not stopped is also one without the signals.** -/
theorem Course.unsignalled (hq : w.unsignalled.Quiet) (hc : Course s w o r)
    (ho : o ≠ .cancelled) : ∃ r', Course s w.unsignalled o r' ∧ Alike r r' := by
  have hstart := alike_start w w.unsignalled
  have hcalm := Calm.start hq
  cases hc with
  | unanswered e ha => exact ⟨_, .unanswered e ha, hstart.asked⟩
  | stopped p ha h => exact absurd rfl ho
  | polled p ha _ o r₁ r hr he =>
    have htold : Alike (((start w).grounded w p).told w)
        (((start w.unsignalled).grounded w.unsignalled p).told w.unsignalled) :=
      (hstart.grounded p).told rfl
    obtain ⟨r₁', hr', halike, hcalm'⟩ := htold.reached hq ((hcalm.grounded hq p).told hq) hr
    obtain ⟨r', he', halike'⟩ := halike.round_unsignalled hq hcalm' he (mt Option.some.inj ho)
    have ha' : (w.unsignalled.answers 0).package s = .ok p := ha
    have hask : ((start w.unsignalled).grounded w.unsignalled p).isAsked = false :=
      (hcalm.grounded hq p).isAsked
    exact ⟨r', .polled p ha' hask o r₁' r' hr' he', halike'⟩

end Run

/-- **A watch that was not stopped is the watch without the signals.** -/
theorem run_unsignalled {s : Settings} {w : Surroundings} {o : Outcome} {r : Run}
    (hI : 0 < s.intervalMillis) (hq : w.unsignalled.Quiet) (hc : Run.Course s w o r)
    (ho : o ≠ .cancelled) : run s w = run s w.unsignalled := by
  obtain ⟨r', hc', halike⟩ := hc.unsignalled hq ho
  rw [hc.run_eq hI, hc'.run_eq hI, halike.report]

end RevisionWatch.Watch
