import RevisionWatch.Proofs.Watch.Ties
import RevisionWatch.Proofs.Watch.Unsent
/-!
# What a watch hears of its signals

A watch hears the first value that is sent to it, and no more. Two watches to which the first value
is sent at the same moment end with the same report, or neither ends: how much their channels hold,
what is sent behind that value, and whether the channel is closed then do not matter
(`FirstValue.run?_hearing`). A watch to which no value is sent is one without a channel
(`Surroundings.Quiet.run?_hearing`). Nothing is assumed of the interval; a watch that does not sleep
may poll for ever.

The two watches are run side by side in a relation that their rounds keep (`Run.Abreast`); for the
first value it is `FirstValue.Beside`. With ties broken in any way, all that is heard is said by
`hears_first_value_only`.
-/

namespace RevisionWatch.Watch

variable {s : Settings} {w w' : Surroundings} {b : Package} {m : Moment}

/-! ## 1. Two watches side by side -/

/-- **A relation that keeps two watches side by side**: their runs are alike and asked to stop at
    the same time, their sleeps end alike, and the rounds they sleep on keep it. -/
structure Run.Abreast (s : Settings) (w w' : Surroundings) (b : Package)
    (R : Run → Run → Prop) : Prop where
  alike : ∀ {r r'}, R r r' → Run.Alike r r'
  asks : ∀ {r r'}, R r r' → r'.isAsked = r.isAsked
  sleeps : ∀ {r r'}, R r r' → r.isAsked = false → ∀ p,
    ((r'.unchanged w' p).sleep s w').1 = ((r.unchanged w p).sleep s w).1 ∧
      Run.Alike ((r.unchanged w p).sleep s w).2 ((r'.unchanged w' p).sleep s w').2
  keeps : ∀ {r r' r₁ r₁'}, R r r' → Run.Round s w b r none r₁ → Run.Round s w' b r' none r₁' →
    Run.Alike r₁ r₁' → R r₁ r₁'

namespace Run

variable {R : Run → Run → Prop}

/-- Polling that is kept side by side ends with the same report, or not at all. -/
theorem Abreast.pollFrom (hR : Abreast s w w' b R) (ha : w'.answers = w.answers) :
    ∀ (fuel : Nat) {r r' : Run}, R r r' →
      (pollFrom s w' b fuel r').map (fun x => x.2.report s x.1) =
        (pollFrom s w b fuel r).map fun x => x.2.report s x.1
  | 0, _, _, _ => rfl
  | fuel + 1, r, r', h => by
    obtain ⟨o, r₁, hr⟩ := exists_round s w b r
    obtain ⟨r₁', hr', halike⟩ :=
      (hR.alike h).round ha (hR.asks h) hr fun hask p _ => hR.sleeps h hask p
    cases o with
    | some o =>
      rw [pollFrom_of_ends hr, pollFrom_of_ends hr']
      exact congrArg some (halike.report s o).symm
    | none =>
      rw [pollFrom_of_goesOn hr, pollFrom_of_goesOn hr']
      exact hR.pollFrom ha fuel (hR.keeps h hr hr' halike)

end Run

/-- **Two watches that are kept side by side end with the same report**, or neither ends. -/
theorem run?_eq_of_abreast {R : Run → Run → Prop} (hR : ∀ b, Run.Abreast s w w' b R)
    (ha : w'.answers = w.answers)
    (hasked : ∀ b, ((Run.start w').grounded w' b).isAsked = ((Run.start w).grounded w b).isAsked)
    (htold : ∀ b, ((Run.start w).grounded w b).isAsked = false →
      R (((Run.start w).grounded w b).told w) (((Run.start w').grounded w' b).told w'))
    (fuel : Nat) : run? s w' fuel = run? s w fuel := by
  have hstart := Run.alike_start w w'
  unfold run?
  cases hp : (w.answers 0).package s with
  | error e =>
    have hp' : (w'.answers 0).package s = .error e := by
      rw [ha]
      exact hp
    rw [Run.drive_unanswered (r := Run.start w) fuel hp,
      Run.drive_unanswered (r := Run.start w') fuel hp']
    exact congrArg some (hstart.asked.report s _).symm
  | ok b =>
    have hp' : (w'.answers 0).package s = .ok b := by
      rw [ha]
      exact hp
    rw [Run.drive_answered (r := Run.start w) fuel hp,
      Run.drive_answered (r := Run.start w') fuel hp', hasked b]
    cases hask : ((Run.start w).grounded w b).isAsked with
    | true => exact congrArg some ((hstart.grounded b).report s _).symm
    | false => exact (hR b).pollFrom ha fuel (htold b hask)

/-! ## 2. The same first value -/

/-- **Two watches with the same first value**: both have it in their inbox, or it is still to come
    and nothing was sent to either. -/
inductive FirstValue.Beside (s : Settings) (w w' : Surroundings) (m : Moment) (r r' : Run) :
    Prop where
  | asked (halike : Run.Alike r r') (h : r.isAsked = true) (h' : r'.isAsked = true)
  | unsent (halike : Run.Alike r r') (n : Nat) (hf : m.Follows s n) (hn : Paced s w n r)
      (hn' : Paced s w' n r') (hu : r.Unsent w) (hu' : r'.Unsent w')

/-- **What a sleep comes to in both**: both are woken at the same time, or neither is, and then the
    value has come to both or is still to come. -/
inductive FirstValue.SleptBeside (s : Settings) (w w' : Surroundings) (m : Moment) (n : Nat)
    (x x' : Bool × Run) : Prop where
  | woken (hs : x.1 = true) (hs' : x'.1 = true) (hclock : x'.2.clock = x.2.clock)
  | asked (hs : x.1 = false) (hs' : x'.1 = false) (hask : x.2.isAsked = true)
      (hask' : x'.2.isAsked = true)
  | unsent (hs : x.1 = false) (hs' : x'.1 = false) (hf : m.Follows s (n + 1))
      (hu : x.2.Unsent w) (hu' : x'.2.Unsent w')

/-- Two watches that were not yet sent the value sleep alike, whether it comes in that round or
    later. -/
theorem FirstValue.sleptBeside (h : FirstValue s w m) (h' : FirstValue s w' m) {n : Nat}
    {r r' : Run} (hf : m.Follows s n) (hn : Paced s w n r) (hn' : Paced s w' n r')
    (hu : r.Unsent w) (hu' : r'.Unsent w') (p : Package) :
    FirstValue.SleptBeside s w w' m n ((r.unchanged w p).sleep s w)
      ((r'.unchanged w' p).sleep s w') := by
  rcases hf.next with rfl | rfl | ⟨t, rfl, hlt, hle⟩ | hlater
  · obtain ⟨hs, hc⟩ := h.sleep_of_query hn hu p
    obtain ⟨hs', hc'⟩ := h'.sleep_of_query hn' hu' p
    exact .woken hs hs' (hc'.trans hc.symm)
  · obtain ⟨hs, hc⟩ := h.sleep_of_begun hn hu p
    obtain ⟨hs', hc'⟩ := h'.sleep_of_begun hn' hu' p
    exact .woken hs hs' (hc'.trans hc.symm)
  · have hsleep := h.sleep_of_time hn hu p hlt
    have hsleep' := h'.sleep_of_time hn' hu' p hlt
    rcases Nat.lt_or_eq_of_le hle with hbefore | hend
    · obtain ⟨hs, hc⟩ := hsleep.1 hbefore
      obtain ⟨hs', hc'⟩ := hsleep'.1 hbefore
      exact .woken hs hs' (hc'.trans hc.symm)
    · obtain ⟨hs, hask⟩ := hsleep.2 hend
      obtain ⟨hs', hask'⟩ := hsleep'.2 hend
      exact .asked hs hs' hask hask'
  · obtain ⟨hs, hunsent⟩ := h.sleep_of_follows hn hu p hlater
    obtain ⟨hs', hunsent'⟩ := h'.sleep_of_follows hn' hu' p hlater
    exact .unsent hs hs' hlater hunsent hunsent'

/-- **The same first value keeps two watches side by side.** -/
theorem FirstValue.abreast (h : FirstValue s w m) (h' : FirstValue s w' m)
    (ha : w'.answers = w.answers) :
    Run.Abreast s w w' b (FirstValue.Beside s w w' m) where
  alike hb := by
    cases hb with
    | asked halike _ _ => exact halike
    | unsent halike _ _ _ _ _ _ => exact halike
  asks hb := by
    obtain ⟨capacity, hi⟩ := h.fresh
    obtain ⟨capacity', hi'⟩ := h'.fresh
    cases hb with
    | asked _ hask hask' => rw [hask, hask']
    | unsent _ _ _ _ _ hu hu' => rw [hu.isAsked hi, hu'.isAsked hi']
  sleeps hb hnot p := by
    cases hb with
    | asked _ hask _ =>
      rw [hask] at hnot
      cases hnot
    | unsent halike n hf hn hn' hu hu' =>
      have hpolled : Run.Alike (Run.unchanged w p _) (Run.unchanged w' p _) := halike.unchanged p
      cases h.sleptBeside h' hf hn hn' hu hu' p with
      | woken hs hs' hclock => exact ⟨hs'.trans hs.symm, hpolled.sleep_of_clock hclock⟩
      | asked hs hs' _ _ => exact ⟨hs'.trans hs.symm, hpolled.sleep hs hs'⟩
      | unsent hs hs' _ _ _ => exact ⟨hs'.trans hs.symm, hpolled.sleep hs hs'⟩
  keeps hb hr hr' halike₁ := by
    cases hb with
    | asked _ hask _ =>
      cases hr with
      | slept p hnot _ _ _ _ _ =>
        rw [hask] at hnot
        cases hnot
    | unsent halike n hf hn hn' hu hu' =>
      have hstep := hn.step hr
      have hstep' := hn'.step hr'
      cases hr with
      | slept p _ hp _ _ _ hs =>
        cases hr' with
        | slept p' _ hp' _ _ _ hs' =>
          -- both have the same answer
          obtain rfl : p' = p := by
            rw [ha, hn'.queries, ← hn.queries, hp] at hp'
            exact (Except.ok.inj hp').symm
          cases h.sleptBeside h' hf hn hn' hu hu' p' with
          | woken hwoken _ _ =>
            rw [hs] at hwoken
            cases hwoken
          | asked _ _ hask hask' => exact .asked halike₁ hask hask'
          | unsent _ _ hlater hunsent hunsent' =>
            exact .unsent halike₁ (n + 1) hlater hstep hstep' hunsent hunsent'

/-- The same surroundings with another channel and another plan. -/
def Surroundings.hearing (w : Surroundings) (inbox : Option Inbox) (signals : Signals) :
    Surroundings :=
  { w with inbox, signals }

/-- **What comes behind the first value is not heard**, nor how much the channel holds. -/
theorem FirstValue.run?_hearing {inbox : Option Inbox} {signals : Signals}
    (h : FirstValue s w m) (h' : FirstValue s (w.hearing inbox signals) m) (fuel : Nat) :
    run? s (w.hearing inbox signals) fuel = run? s w fuel := by
  obtain ⟨capacity, hi⟩ := h.fresh
  obtain ⟨capacity', hi'⟩ := h'.fresh
  have htold (b : Package) : Run.Alike (((Run.start w).grounded w b).told w)
      (((Run.start (w.hearing inbox signals)).grounded (w.hearing inbox signals) b).told
        (w.hearing inbox signals)) :=
    ((Run.alike_start w _).grounded b).told rfl
  refine run?_eq_of_abreast (fun b => h.abreast h' rfl) rfl (fun b => ?_) (fun b hnot => ?_) fuel
  · rcases Moment.kinds_zero s h.counted with hearly | hm
    · rw [h.isAsked_grounded hearly, h'.isAsked_grounded hearly]
    · rw [(h.unsent_grounded hm).isAsked hi, (h'.unsent_grounded hm).isAsked hi']
  · rcases Moment.kinds_zero s h.counted with hearly | rfl | hfollows
    · rw [h.isAsked_grounded hearly] at hnot
      cases hnot
    · exact .asked (htold b) h.isAsked_told h'.isAsked_told
    · exact .unsent (htold b) 0 hfollows (.start s w b) (.start s _ b) (h.unsent_told hfollows)
        (h'.unsent_told hfollows)

/-! ## 3. No value -/

theorem Surroundings.quiet_hearing (w : Surroundings) : (w.hearing none .silent).Quiet where
  inbox _ hi := nomatch hi
  atStart := List.not_mem_nil
  inQuery _ := List.not_mem_nil
  inFiring := List.not_mem_nil
  inSleep _ := List.not_mem_nil
  atTimes _ hp := nomatch hp

/-- Two watches to which no value is sent are kept side by side. -/
theorem Surroundings.Quiet.abreast (hq : w.Quiet) (hq' : w'.Quiet) :
    Run.Abreast s w w' b fun r r' => Run.Alike r r' ∧ r.Calm ∧ r'.Calm where
  alike h := h.1
  asks h := by rw [h.2.1.isAsked, h.2.2.isAsked]
  sleeps h _ p := by
    obtain ⟨halike, hcalm, hcalm'⟩ := h
    have hs := ((hcalm.unchanged hq p).sleep hq s).1
    have hs' := ((hcalm'.unchanged hq' p).sleep hq' s).1
    exact ⟨hs'.trans hs.symm, (halike.unchanged p).sleep hs hs'⟩
  keeps h hr hr' halike := ⟨halike, h.2.1.round hq hr, h.2.2.round hq' hr'⟩

/-- **A channel on which no value is sent is not heard**, closed or not. -/
theorem Surroundings.Quiet.run?_hearing (hq : w.Quiet) (s : Settings) (fuel : Nat) :
    run? s (w.hearing none .silent) fuel = run? s w fuel := by
  have hq' := w.quiet_hearing
  have hcalm (b : Package) := (Run.Calm.start hq).grounded hq b
  have hcalm' (b : Package) := (Run.Calm.start hq').grounded hq' b
  refine run?_eq_of_abreast (fun b => hq.abreast hq') rfl (fun b => ?_) (fun b _ => ?_) fuel
  · rw [(hcalm b).isAsked, (hcalm' b).isAsked]
  · exact ⟨((Run.alike_start w _).grounded b).told rfl, (hcalm b).told hq, (hcalm' b).told hq'⟩

/-! ## 4. All that is heard -/

/-- **A watch hears of its channel the first value and no more**, whatever it is told and answered
    and whatever comes of telling the agent: two plans with the first value at one moment make no
    difference; nor does a channel without a value, or none; nor does it matter what a sleep
    notices first if a value can be read and its time is up. -/
theorem hears_first_value_only (s : Settings) (w : Surroundings) :
    (∀ inbox signals m, FirstValue s w m → FirstValue s (w.hearing inbox signals) m →
        ∀ fuel, run? s (w.hearing inbox signals) fuel = run? s w fuel) ∧
      (w.Quiet → ∀ fuel, run? s (w.hearing none .silent) fuel = run? s w fuel) ∧
      ∀ c rep, (∃ fuel, runBy? c s w fuel = some rep) ↔ ∃ fuel, run? s w fuel = some rep := by
  refine ⟨fun inbox signals m h h' => h.run?_hearing h', fun hq => hq.run?_hearing s,
    fun c rep => ?_⟩
  simp only [← runBy?_usual s w]
  exact ⟨runBy?_agree c .usual s w, runBy?_agree .usual c s w⟩

/-- The package stays at its revision; a value comes with the third query, when the channel cannot
    hold what else is sent and is closed. -/
private def crowdedAtThirdQuery : Surroundings where
  answers _ := .found ⟨"agent", ⟨51, by decide⟩, none, .service true⟩
  firing := .outcome (.accepted 202)
  inbox := some { capacity := 1 }
  signals := { inQuery := fun n => if n = 3 then [.value, .value, .value, .closing] else [] }

/-- Only that value comes, and the channel holds it; it would be closed later. -/
private def oneAtThirdQuery : Signals where
  inQuery n := if n = 3 then [.value] else []
  inSleep n := if n = 7 then [.closing] else []

/-- Polls without a pause, three times at most. -/
private def restless : Settings :=
  ⟨"agent", 0, 60, some 3⟩

theorem crowded_heard_as_one :
    let single := crowdedAtThirdQuery.hearing (some { capacity := 16 }) oneAtThirdQuery
    let closed := crowdedAtThirdQuery.hearing (some { capacity := 4 }) { atStart := [.closing] }
    FirstValue restless crowdedAtThirdQuery (.query 3) ∧
      FirstValue restless single (.query 3) ∧ closed.Quiet ∧
      (∃ rep, run? restless crowdedAtThirdQuery 2 = some rep ∧ rep.outcome = .cancelled ∧
        rep.polls = 2 ∧ rep.sleeps = 2 ∧ run? restless single 2 = some rep ∧
        ∃ fuel, runBy? ⟨fun _ => false, fun _ => true⟩ restless crowdedAtThirdQuery fuel =
          some rep) ∧
      ∃ rep, run? restless closed 3 = some rep ∧ rep.outcome = .timedOut ∧
        run? restless (closed.hearing none .silent) 3 = some rep := by
  intro single closed
  have hcrowded : FirstValue restless crowdedAtThirdQuery (.query 3) := {
    counted := show 1 ≤ 3 by decide
    fresh := ⟨1, rfl⟩
    rising := List.Pairwise.nil
    sent := ⟨[.value, .value, .closing], rfl⟩
    unsent := by
      intro m' _ hbefore
      cases m' with
      | query k =>
        have hk : k ≠ 3 := fun hk => by
          rw [hk] at hbefore
          exact absurd hbefore (by unfold Moment.Before; decide)
        exact if_neg hk
      | _ => rfl }
  have hsingle : FirstValue restless single (.query 3) := {
    counted := show 1 ≤ 3 by decide
    fresh := ⟨16, rfl⟩
    rising := List.Pairwise.nil
    sent := ⟨[], rfl⟩
    unsent := by
      intro m' _ hbefore
      cases m' with
      | query k =>
        have hk : k ≠ 3 := fun hk => by
          rw [hk] at hbefore
          exact absurd hbefore (by unfold Moment.Before; decide)
        exact if_neg hk
      | sleep k =>
        have hk : k ≠ 7 := fun hk => by
          rw [hk] at hbefore
          exact absurd hbefore (by unfold Moment.Before; decide)
        exact if_neg hk
      | _ => rfl }
  have hclosed : closed.Quiet := {
    inbox := fun i hi => by cases hi; rfl
    atStart := by decide
    inQuery := fun _ => List.not_mem_nil
    inFiring := List.not_mem_nil
    inSleep := fun _ => List.not_mem_nil
    atTimes := fun _ hp => nomatch hp }
  have hrun : run? restless crowdedAtThirdQuery 2 =
      some ((run? restless crowdedAtThirdQuery 2).getD default) := by decide +kernel
  have hrun' : run? restless closed 3 = some ((run? restless closed 3).getD default) := by
    decide +kernel
  obtain ⟨hsame, -, hties⟩ := hears_first_value_only restless crowdedAtThirdQuery
  obtain ⟨-, hnone, -⟩ := hears_first_value_only restless closed
  refine ⟨hcrowded, hsingle, hclosed, ⟨_, hrun, by decide +kernel, by decide +kernel,
    by decide +kernel, ?_, (hties _ _).2 ⟨2, hrun⟩⟩, _, hrun', by decide +kernel, ?_⟩
  · rw [← hrun]
    exact hsame _ _ _ hcrowded hsingle 2
  · rw [← hrun']
    exact hnone hclosed 3

end RevisionWatch.Watch
