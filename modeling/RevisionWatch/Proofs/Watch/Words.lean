import RevisionWatch.Proofs.Json.Steps
import RevisionWatch.Proofs.Watch.Pace
import RevisionWatch.Watch.Machine
/-!
# A watch on a machine and the watch that is counted exactly

On a machine an addition may stop a watch, and a counter may begin again at zero. What a machine
makes of a watch is said here by the watch that counts without bound:

* `Run.shown` -- a run with its counters as words of 32 bits show them;
* `Machine.Tells` -- the clock can tell every time that the watch computes;
* `Machine.Bears` -- besides, no counter of a checked program runs over;
* `Machine.Kept` -- the invariant of the rounds: the run behind so many of them is borne;
* `Machine.Makes` -- what a machine makes of a watch that is counted exactly (`Machine.drive_makes`);
* `Machine.run?_eq_ok_iff` -- a watch has a report on a machine just if the machine bears the watch
  that is counted exactly, and then the report is what is shown of that; else an addition stops the
  program (`Machine.run?_stopped`).

As long as the polls are fewer than a word can count, what is shown is the watch itself
(`Run.Course.shown_eq`), so a machine that carries a watch has its report (`Machine.Carries`,
`Machine.run?_of_carries`).
-/

namespace RevisionWatch.Watch

open Decimal (word32)

variable {m : Machine} {s : Settings} {w : Surroundings} {b p : Package} {r r' : Run} {o : Outcome}
  {n : Nat}

/-! ## 1. What is shown -/

/-- What a counter shows of a number. -/
def wordOf (n : Nat) : Nat :=
  n % word32

theorem wordOf_of_lt (h : n < word32) : wordOf n = n :=
  Nat.mod_eq_of_lt h

/-- The event with its number of polls as the counter shows it. -/
def Event.shown : Event → Event
  | .observed before after polls => .observed before after (wordOf polls)
  | .pollsUsedUp polls => .pollsUsedUp (wordOf polls)
  | .timeUsedUp polls => .timeUsedUp (wordOf polls)
  | e => e

/-- The run with its counters as they show. -/
def Run.shown (r : Run) : Run :=
  { r with
    polls := wordOf r.polls
    sleeps := wordOf r.sleeps
    journal := r.journal.map Event.shown }

/-- The report with its counters as they show. -/
def Report.shown (rep : Report) : Report :=
  { rep with
    polls := wordOf rep.polls
    sleeps := wordOf rep.sleeps
    journal := rep.journal.map Event.shown }

namespace Run

theorem report_shown (s : Settings) (o : Outcome) (r : Run) :
    r.shown.report s o = (r.report s o).shown := by
  unfold report Report.shown
  cases o <;> simp only [List.map_reverse] <;> rfl

/-- What is sent arrives alike. -/
theorem overhear_shown (wake : Nat) : ∀ (due : List (Nat × Sent)) (r : Run),
    overhear wake due r.shown = ((overhear wake due r).1, (overhear wake due r).2.shown)
  | [], _ => rfl
  | (t, sent) :: due, r => by
    have ih := overhear_shown wake due (r.push [sent])
    have hpush : r.shown.push [sent] = (r.push [sent]).shown := rfl
    have hask : (r.push [sent]).shown.isAsked = (r.push [sent]).isAsked := rfl
    unfold overhear
    simp only [hpush, hask, ih]
    split
    · split <;> rfl
    · rfl

theorem doze_shown (wake : Nat) (r : Run) :
    r.shown.doze wake = ((r.doze wake).1, (r.doze wake).2.shown) := by
  have hask : r.shown.isAsked = r.isAsked := rfl
  have hdue : r.shown.due = r.due := rfl
  unfold doze
  rw [hask, hdue, overhear_shown]
  split
  · rfl
  · rcases overhear wake r.due r with ⟨_ | t, r'⟩ <;> rfl

/-- A poll that shows the old revision opens the polling phase of what is shown as well. -/
theorem unchanged_shown (w : Surroundings) (p : Package) (r : Run) :
    (if (r.polled w p).shown.phase = .triggerSent then (r.polled w p).shown.enter .polling
      else (r.polled w p).shown) = (r.unchanged w p).shown := by
  have hphase : (r.polled w p).shown.phase = (r.polled w p).phase := rfl
  unfold unchanged
  rw [hphase]
  dsimp only
  split <;> rfl

/-! A run whose journal holds no number of polls is shown as it is, save its counters. -/

/-- What is shown of the journal is the journal. -/
def Plain (r : Run) : Prop :=
  ∀ e ∈ r.journal, e.shown = e

theorem Plain.note (h : r.Plain) {e : Event} (he : e.shown = e) : (r.note e).Plain :=
  List.forall_mem_cons.2 ⟨he, h⟩

theorem Plain.unchanged (h : r.Plain) (w : Surroundings) (p : Package) :
    (r.unchanged w p).Plain := by
  have hpolled : (r.polled w p).Plain := h.note rfl
  rcases unchanged_cases w p r with hu | hu
  · rw [hu]
    exact hpolled
  · rw [hu]
    exact hpolled.note rfl

theorem Plain.sleep (h : r.Plain) (s : Settings) (w : Surroundings) : (r.sleep s w).2.Plain := by
  unfold Plain
  rw [journal_sleep]
  exact List.forall_mem_cons.2 ⟨rfl, h⟩

theorem Plain.told (h : r.Plain) (w : Surroundings) : (r.told w).Plain :=
  Plain.note (r := r.fire w) (h.note rfl) rfl

theorem Plain.round (h : r.Plain) (hr : Round s w b r none r') : r'.Plain := by
  cases hr with
  | slept p hask ha hv hleft ht hs => exact (h.unchanged w p).sleep s w

theorem Plain.reached {r₀ : Run} (h : r₀.Plain) (hr : Reached s w b r₀ r) : r.Plain := by
  induction hr with
  | start => exact h
  | step r₁ r₂ _ hround ih => exact ih.round hround

/-- The last round may write the number of polls. -/
theorem Plain.ends (h : r.Plain) (hr : Round s w b r (some o) r') (hp : r'.polls < word32) :
    r'.Plain := by
  have hnumber {k : Nat} (hk : k = r'.polls) : wordOf k = k := wordOf_of_lt (hk ▸ hp)
  have hu (p : Package) : (r.unchanged w p).polls = r.polls + 1 := (r.unchanged_fields w p).2.2.1
  cases hr with
  | stopped _ => exact h
  | unanswered e _ _ => exact h.note rfl
  | done p _ _ _ =>
    have hpolled : (r.polled w p).Plain := h.note rfl
    exact hpolled.note (congrArg _ (hnumber rfl))
  | wrong p e _ _ _ => exact h.note rfl
  | pollsUsedUp p _ _ _ _ => exact (h.unchanged w p).note (congrArg _ (hnumber (hu p).symm))
  | timeUsedUp p _ _ _ _ _ => exact (h.unchanged w p).note (congrArg _ (hnumber (hu p).symm))
  | woken p _ _ _ _ _ _ => exact (h.unchanged w p).sleep s w

theorem Plain.shown_eq (h : r.Plain) (hp : r.polls < word32) (hs : r.sleeps ≤ r.polls) :
    r.shown = r := by
  have hjournal : r.journal.map Event.shown = r.journal := List.map_congr_left h ▸ List.map_id _
  unfold shown
  rw [hjournal, wordOf_of_lt hp, wordOf_of_lt (Nat.lt_of_le_of_lt hs hp)]

end Run

/-! ## 2. What a round counts -/

/-- **What a round counts**: nothing, a poll, or a poll and the sleep behind it. -/
theorem Paced.counts {x : Option Outcome} (h : Paced s w n r) (hr : Run.Round s w b r x r') :
    (r'.polls = n ∧ r'.sleeps = n) ∨
      ∃ p, r.isAsked = false ∧ (w.answers r.queries).package s = .ok p ∧ r'.polls = n + 1 ∧
        (r'.sleeps = n ∨ r'.sleeps = n + 1 ∧ verdict b p = .pending ∧
          ¬ Run.PollsUsedUp s (r.polls + 1) ∧ r.clock < s.timeoutMillis) := by
  have hpolls : r.polls + 1 = n + 1 := congrArg (· + 1) h.polls
  have hu (p : Package) := (r.unchanged_fields w p).2.2
  have hon (p : Package) := Run.sleptOn s w p r
  cases hr with
  | stopped hask => exact .inl ⟨h.polls, h.sleeps⟩
  | unanswered e hask ha => exact .inl ⟨h.polls, h.sleeps⟩
  | done p hask ha hv => exact .inr ⟨p, hask, ha, hpolls, .inl h.sleeps⟩
  | wrong p e hask ha hv => exact .inr ⟨p, hask, ha, hpolls, .inl h.sleeps⟩
  | pollsUsedUp p hask ha hv hm =>
    exact .inr ⟨p, hask, ha, (hu p).1.trans hpolls, .inl ((hu p).2.1.trans h.sleeps)⟩
  | timeUsedUp p hask ha hv hm ht =>
    exact .inr ⟨p, hask, ha, (hu p).1.trans hpolls, .inl ((hu p).2.1.trans h.sleeps)⟩
  | woken p hask ha hv hm ht hs =>
    have hsleeps := (hon p).sleeps.trans (congrArg (· + 1) h.sleeps)
    exact .inr ⟨p, hask, ha, (hon p).polls.trans hpolls, .inr ⟨hsleeps, hv, hm, ht⟩⟩
  | slept p hask ha hv hm ht hs =>
    have hsleeps := (hon p).sleeps.trans (congrArg (· + 1) h.sleeps)
    exact .inr ⟨p, hask, ha, (hon p).polls.trans hpolls, .inr ⟨hsleeps, hv, hm, ht⟩⟩

/-- Polling that ends has counted no less than the run that it began with. -/
theorem Paced.le_counts (h : Paced s w n r) {fuel : Nat}
    (hr : Run.pollFrom s w b fuel r = some (o, r')) : n ≤ r'.polls ∧ n ≤ r'.sleeps := by
  obtain ⟨r₁, hreach, hend⟩ := Run.pollFrom_eq_some fuel hr
  obtain ⟨k, hk, hle⟩ := hreach.counted (P := fun k r => Paced s w k r ∧ n ≤ k)
    ⟨h, Nat.le_refl n⟩ fun _ _ _ hm hs => ⟨hm.1.step hs, Nat.le_succ_of_le hm.2⟩
  rcases hk.counts hend with ⟨hp, hl⟩ | ⟨p, -, -, hp, hl | ⟨hl, -⟩⟩ <;> omega

/-- The settings are those of words: there may be as many polls as a word can count. -/
def Settings.InWords (s : Settings) : Prop :=
  ∀ max, s.maxPolls = some max → max < word32

/-- Behind so many polls there is another to make. The first is made in any case. -/
def Run.Budgeted (s : Settings) (n : Nat) : Prop :=
  n = 0 ∨ ¬ PollsUsedUp s n

/-- A round is slept on only if there is another poll to make. -/
theorem Paced.budgeted (h : Paced s w n r) (hr : Run.Round s w b r none r') :
    Run.Budgeted s (n + 1) := by
  cases hr with
  | slept p hask ha hv hm ht hs => exact .inr (h.polls ▸ hm)

/-- A word can count the next poll that a budget allows. -/
theorem Run.Budgeted.lt_word32 {max : Nat} (h : Budgeted s n) (hs : s.InWords)
    (hmax : s.maxPolls = some max) : n + 1 < word32 := by
  have hword := hs max hmax
  rcases h with rfl | hleft
  · decide
  · have hlt : n < max := Nat.lt_of_not_le fun hle => hleft ⟨max, hmax, hle⟩
    omega

/-! ## 3. What a machine bears -/

namespace Machine

/-- **The clock can tell every time** that a watch computes: its deadline, and the end of the
    interval behind each poll that it sleeps on. -/
structure Tells (m : Machine) (s : Settings) (sleeps : Nat) : Prop where
  deadline : s.timeoutMillis ≤ m.lastMillis
  wakes : sleeps * s.intervalMillis ≤ m.lastMillis

/-- **No addition of a watch stops the program**: the clock can tell its times, and if the program is
    checked a word can count its polls. -/
structure Bears (m : Machine) (s : Settings) (polls sleeps : Nat) : Prop
    extends Tells m s sleeps where
  polls : m.checked = true → polls < word32

theorem count_wordOf (h : m.checked = true → n + 1 < word32) :
    m.count (wordOf n) = .ok (wordOf (n + 1)) := by
  unfold count wordOf
  by_cases hlt : n % word32 + 1 < word32
  · rw [if_pos hlt]
    have hsucc : (n + 1) % word32 = n % word32 + 1 := by
      unfold word32 at hlt ⊢
      omega
    rw [hsucc]
  · have hchecked : m.checked = false := Bool.eq_false_iff.2 fun hc => hlt (by
      have hsmall := h hc
      unfold word32 at hsmall ⊢
      omega)
    have hzero : (n + 1) % word32 = 0 := by
      unfold word32 at hlt ⊢
      omega
    rw [if_neg hlt, hchecked, hzero]
    rfl

theorem count_last (hc : m.checked = true) (hlt : n < word32) (hle : word32 ≤ n + 1) :
    m.count (wordOf n) = .error .counter := by
  unfold count
  rw [wordOf_of_lt hlt, if_neg (Nat.not_lt.2 hle), if_pos hc]

theorem later_of_le {now millis : Nat} (h : now + millis ≤ m.lastMillis) :
    m.later now millis = .ok (now + millis) :=
  if_pos h

theorem later_of_lt {now millis : Nat} (h : m.lastMillis < now + millis) :
    m.later now millis = .error .clock :=
  if_neg (Nat.not_le.2 h)

/-- **A sleep on the machine is the sleep**, if its end can be told and it can be counted. -/
theorem sleep_shown (hq : r.queries = r.sleeps + 2)
    (hl : r.clock + s.intervalMillis ≤ m.lastMillis)
    (hc : m.checked = true → r.sleeps + 1 < word32) :
    m.sleep s w s.timeoutMillis r.shown =
      .ok ((r.sleep s w).1, (r.sleep s w).2.shown) := by
  have hlater : m.later r.shown.clock s.intervalMillis = .ok (r.clock + s.intervalMillis) :=
    later_of_le hl
  have hcount : m.count r.shown.sleeps = .ok (wordOf (r.sleeps + 1)) := count_wordOf hc
  have hnumber : r.shown.queries - 1 = r.sleeps + 1 := by
    show r.queries - 1 = _
    omega
  unfold sleep
  rw [hlater, ok_bind, hcount, ok_bind]
  dsimp only
  rw [hnumber]
  exact congrArg _ (Run.doze_shown (r.wake s) (r.resting w))

theorem sleep_of_lt (h : m.lastMillis < r.clock + s.intervalMillis) (deadline : Nat) :
    m.sleep s w deadline r.shown = .error .clock := by
  have hlater : m.later r.shown.clock s.intervalMillis = .error .clock := later_of_lt h
  unfold sleep
  rw [hlater]
  rfl

/-! ## 4. Rounds -/

theorem round_asked (h : r.isAsked = true) (deadline : Nat) :
    m.round s w deadline b r.shown = .ok (.inl (.cancelled, r.shown)) := by
  have hask : r.shown.isAsked = true := h
  rw [round, hask]
  rfl

theorem round_unanswered {e : Error} (h : r.isAsked = false)
    (ha : (w.answers r.queries).package s = .error e) (deadline : Nat) :
    m.round s w deadline b r.shown = .ok (.inl (.failed e, (r.asked w).shown)) := by
  have hask : r.shown.isAsked = false := h
  rw [round, hask, Run.ask_error (r := r.shown) ha]
  rfl

/-- A poll that is answered is counted and judged. -/
theorem round_answered (h : r.isAsked = false)
    (ha : (w.answers r.queries).package s = .ok p) (deadline : Nat) :
    m.round s w deadline b r.shown =
      (m.count (wordOf r.polls) >>= fun polls =>
        m.judge s w deadline b p { r.shown.informed w p with polls }) := by
  have hask : r.shown.isAsked = false := h
  rw [round, hask, Run.ask_ok (r := r.shown) ha]
  rfl

/-- So is one that can be counted, as the run behind it shows. -/
theorem round_polled (h : r.isAsked = false) (ha : (w.answers r.queries).package s = .ok p)
    (hc : m.checked = true → r.polls + 1 < word32) (deadline : Nat) :
    m.round s w deadline b r.shown = m.judge s w deadline b p (r.polled w p).shown := by
  rw [round_answered h ha, count_wordOf hc]
  rfl

/-- What is judged of a poll that shows the old revision. -/
theorem judge_unchanged (hv : verdict b p = .pending) (deadline : Nat) :
    m.judge s w deadline b p (r.polled w p).shown =
      if s.maxPolls.any (· ≤ wordOf (r.polls + 1)) then
        .ok (.inl (.timedOut, ((r.unchanged w p).note (.pollsUsedUp (r.polls + 1))).shown))
      else if deadline ≤ r.clock then
        .ok (.inl (.timedOut, ((r.unchanged w p).note (.timeUsedUp (r.polls + 1))).shown))
      else
        m.sleep s w deadline (r.unchanged w p).shown >>= fun slept =>
          .ok (if slept.1 then .inl (.cancelled, slept.2) else .inr slept.2) := by
  obtain ⟨hclock, -, hpolls, -⟩ := r.unchanged_fields w p
  have hclock' : (r.unchanged w p).shown.clock = r.clock := hclock
  have hpolls' : (r.unchanged w p).shown.polls = wordOf (r.polls + 1) := congrArg wordOf hpolls
  unfold judge
  rw [hv]
  dsimp only
  rw [Run.unchanged_shown, hclock', hpolls']
  rfl

/-- **A run that the machine has borne so far**, behind `n` rounds each of which was slept on. -/
structure Kept (m : Machine) (s : Settings) (w : Surroundings) (n : Nat) (r : Run) : Prop
    extends Paced s w n r where
  borne : m.Bears s n n
  budget : Run.Budgeted s n

/-- The budget is used up on the counter when it is. -/
theorem Kept.any_maxPolls (h : Kept m s w n r) (hs : s.InWords) :
    s.maxPolls.any (· ≤ wordOf (r.polls + 1)) = s.maxPolls.any (· ≤ r.polls + 1) := by
  rw [h.polls]
  cases hmax : s.maxPolls with
  | none => rfl
  | some max => rw [wordOf_of_lt (h.budget.lt_word32 hs hmax)]

/-- A round that is slept on begins so many intervals behind the start. -/
theorem Kept.clock_eq (h : Kept m s w n r) (ht : r.clock < s.timeoutMillis) :
    r.clock = n * s.intervalMillis := by
  have hclock := h.clock
  omega

/-- A round that is slept on, whether to the end of the sleep or not. -/
theorem Kept.round_slept (h : Kept m s w n r) (hs : s.InWords) (hask : r.isAsked = false)
    (ha : (w.answers r.queries).package s = .ok p) (hv : verdict b p = .pending)
    (hm : ¬ Run.PollsUsedUp s (r.polls + 1)) (ht : r.clock < s.timeoutMillis)
    (hb : m.Bears s (n + 1) (n + 1)) :
    m.round s w s.timeoutMillis b r.shown =
      .ok (if ((r.unchanged w p).sleep s w).1 then
          .inl (.cancelled, ((r.unchanged w p).sleep s w).2.shown)
        else .inr ((r.unchanged w p).sleep s w).2.shown) := by
  obtain ⟨hclock, hqueries, -, hsleeps, -⟩ := r.unchanged_fields w p
  have hc : m.checked = true → r.polls + 1 < word32 := h.polls ▸ hb.polls
  have hq : (r.unchanged w p).queries = (r.unchanged w p).sleeps + 2 := by
    rw [hqueries, hsleeps, h.queries, h.sleeps]
  have hl : (r.unchanged w p).clock + s.intervalMillis ≤ m.lastMillis := by
    rw [hclock, h.clock_eq ht, ← Nat.add_one_mul]
    exact hb.wakes
  have hc' : m.checked = true → (r.unchanged w p).sleeps + 1 < word32 := by
    rw [hsleeps, h.sleeps]
    exact hb.polls
  rw [round_polled hask ha hc, judge_unchanged hv, h.any_maxPolls hs,
    if_neg (mt (Run.any_maxPolls s _).1 hm), if_neg (Nat.not_le.2 ht), sleep_shown hq hl hc',
    ok_bind]

/-- **A round that the machine bears is the round.** -/
theorem Kept.round_ends (h : Kept m s w n r) (hs : s.InWords)
    (hr : Run.Round s w b r (some o) r') (hb : m.Bears s r'.polls r'.sleeps) :
    m.round s w s.timeoutMillis b r.shown = .ok (.inl (o, r'.shown)) := by
  have hu (p : Package) := (r.unchanged_fields w p).2.2.1
  cases hr with
  | stopped hask => exact round_asked hask _
  | unanswered e hask ha => exact round_unanswered hask ha _
  | done p hask ha hv =>
    rw [round_polled hask ha hb.polls, judge, hv]
    rfl
  | wrong p e hask ha hv =>
    rw [round_polled hask ha hb.polls, judge, hv]
  | pollsUsedUp p hask ha hv hm =>
    have hc : m.checked = true → r.polls + 1 < word32 := hu p ▸ hb.polls
    rw [round_polled hask ha hc, judge_unchanged hv, h.any_maxPolls hs,
      if_pos ((Run.any_maxPolls s _).2 hm)]
  | timeUsedUp p hask ha hv hm ht =>
    have hc : m.checked = true → r.polls + 1 < word32 := hu p ▸ hb.polls
    rw [round_polled hask ha hc, judge_unchanged hv, h.any_maxPolls hs,
      if_neg (mt (Run.any_maxPolls s _).1 hm), if_pos ht]
  | woken p hask ha hv hm ht hwoken =>
    have hon := Run.sleptOn s w p r
    rw [hon.polls, hon.sleeps, h.polls, h.sleeps] at hb
    rw [h.round_slept hs hask ha hv hm ht hb, if_pos hwoken]

/-- So is a round that is slept to its end, and the machine has borne the run behind it. -/
theorem Kept.round_goesOn (h : Kept m s w n r) (hs : s.InWords)
    (hr : Run.Round s w b r none r') (hb : m.Bears s r'.polls r'.sleeps) :
    m.round s w s.timeoutMillis b r.shown = .ok (.inr r'.shown) ∧ Kept m s w (n + 1) r' := by
  have hpaced : Paced s w (n + 1) r' := h.toPaced.step hr
  rw [hpaced.polls, hpaced.sleeps] at hb
  cases hr with
  | slept p hask ha hv hm ht hslept =>
    refine ⟨?_, hpaced, hb, h.toPaced.budgeted (.slept p hask ha hv hm ht hslept)⟩
    rw [h.round_slept hs hask ha hv hm ht hb, hslept]
    rfl

/-- A poll that a checked program cannot count stops it. -/
theorem Kept.round_uncounted (h : Kept m s w n r) (hask : r.isAsked = false)
    (ha : (w.answers r.queries).package s = .ok p) (hc : m.checked = true)
    (hn : word32 ≤ n + 1) : m.round s w s.timeoutMillis b r.shown = .error .counter := by
  have hcount : m.count (wordOf n) = .error .counter := count_last hc (h.borne.polls hc) hn
  rw [round_answered hask ha, h.polls, hcount]
  rfl

/-- An interval whose end the clock cannot tell stops the program. -/
theorem Kept.round_untold (h : Kept m s w n r) (hs : s.InWords) (hask : r.isAsked = false)
    (ha : (w.answers r.queries).package s = .ok p) (hv : verdict b p = .pending)
    (hm : ¬ Run.PollsUsedUp s (r.polls + 1)) (ht : r.clock < s.timeoutMillis)
    (hc : m.checked = true → n + 1 < word32)
    (hl : m.lastMillis < (n + 1) * s.intervalMillis) :
    m.round s w s.timeoutMillis b r.shown = .error .clock := by
  have hc' : m.checked = true → r.polls + 1 < word32 := h.polls ▸ hc
  have hl' : m.lastMillis < (r.unchanged w p).clock + s.intervalMillis := by
    rw [(r.unchanged_fields w p).1, h.clock_eq ht, ← Nat.add_one_mul]
    exact hl
  rw [round_polled hask ha hc', judge_unchanged hv, h.any_maxPolls hs,
    if_neg (mt (Run.any_maxPolls s _).1 hm), if_neg (Nat.not_le.2 ht), sleep_of_lt hl']
  rfl

/-- **A round that the machine does not bear stops the program.** -/
theorem Kept.round_stops {x : Option Outcome} (h : Kept m s w n r) (hs : s.InWords)
    (hr : Run.Round s w b r x r') (hb : ¬ m.Bears s r'.polls r'.sleeps) :
    ∃ overrun, m.round s w s.timeoutMillis b r.shown = .error overrun := by
  rcases h.toPaced.counts hr with ⟨hpolls, hsleeps⟩ | ⟨p, hask, ha, hpolls, hsleeps⟩
  · rw [hpolls, hsleeps] at hb
    exact absurd h.borne hb
  · rw [hpolls] at hb
    by_cases hfits : m.checked = true → n + 1 < word32
    · rcases hsleeps with hsleeps | ⟨hsleeps, hv, hm, ht⟩
      · rw [hsleeps] at hb
        exact absurd ⟨h.borne.toTells, hfits⟩ hb
      · rw [hsleeps] at hb
        have hlate : m.lastMillis < (n + 1) * s.intervalMillis := Nat.lt_of_not_le fun htold =>
          hb ⟨⟨h.borne.deadline, htold⟩, hfits⟩
        exact ⟨.clock, h.round_untold hs hask ha hv hm ht hfits hlate⟩
    · obtain ⟨hc, hn⟩ := Classical.not_imp.1 hfits
      exact ⟨.counter, h.round_uncounted hask ha hc (Nat.not_lt.1 hn)⟩

/-! ## 5. The whole watch -/

/-- Where more is borne, less is. -/
theorem Bears.mono {polls sleeps polls' sleeps' : Nat} (h : m.Bears s polls' sleeps')
    (hp : polls ≤ polls') (hl : sleeps ≤ sleeps') : m.Bears s polls sleeps where
  deadline := h.deadline
  wakes := Nat.le_trans (Nat.mul_le_mul_right _ hl) h.wakes
  polls hc := Nat.lt_of_le_of_lt hp (h.polls hc)

/-- **What a machine makes of a watch** that is counted exactly: what is shown of its end if the
    machine bears that, and a stop if it does not; and a watch that does not end does not end well
    there. -/
inductive Makes (m : Machine) (s : Settings) :
    Option (Outcome × Run) → Option (Except Overrun (Outcome × Run)) → Prop where
  | borne (o : Outcome) (r : Run) (h : m.Bears s r.polls r.sleeps) :
      Makes m s (some (o, r)) (some (.ok (o, r.shown)))
  | stopped (o : Outcome) (r : Run) (overrun : Overrun) (h : ¬ m.Bears s r.polls r.sleeps) :
      Makes m s (some (o, r)) (some (.error overrun))
  | unended (made : Option (Except Overrun (Outcome × Run)))
      (h : ∀ ended, made ≠ some (.ok ended)) : Makes m s none made

/-- **Polling on a machine is the polling that is counted exactly**, as far as it is borne. -/
theorem Kept.pollFrom_makes (hs : s.InWords) : ∀ (fuel n : Nat) {r : Run}, Kept m s w n r →
    Makes m s (Run.pollFrom s w b fuel r) (m.pollFrom s w s.timeoutMillis b fuel r.shown)
  | 0, _, _, _ => .unended none fun _ h => nomatch h
  | fuel + 1, n, r, hk => by
    obtain ⟨x, r₁, hr⟩ := Run.exists_round s w b r
    rw [pollFrom]
    by_cases hb : m.Bears s r₁.polls r₁.sleeps
    · cases x with
      | some o =>
        rw [Run.pollFrom_of_ends hr, hk.round_ends hs hr hb]
        exact .borne o r₁ hb
      | none =>
        obtain ⟨hround, hk₁⟩ := hk.round_goesOn hs hr hb
        rw [Run.pollFrom_of_goesOn hr, hround]
        exact Kept.pollFrom_makes hs fuel (n + 1) hk₁
    · obtain ⟨overrun, hstop⟩ := hk.round_stops hs hr hb
      rw [hstop]
      cases x with
      | some o =>
        rw [Run.pollFrom_of_ends hr]
        exact .stopped o r₁ overrun hb
      | none =>
        rw [Run.pollFrom_of_goesOn hr]
        cases hends : Run.pollFrom s w b fuel r₁ with
        | none => exact .unended _ fun _ h => nomatch h
        | some ended =>
          -- what is counted behind this round is no less, so the end is not borne either
          obtain ⟨o, r'⟩ := ended
          have hpaced : Paced s w (n + 1) r₁ := hk.toPaced.step hr
          obtain ⟨hp, hl⟩ := hpaced.le_counts hends
          rw [hpaced.polls, hpaced.sleeps] at hb
          exact .stopped o r' overrun fun hb' => hb (hb'.mono hp hl)

/-- The agent has been told, and there is no poll to bear yet. -/
theorem Kept.start (ht : m.Tells s 0) (b : Package) :
    Kept m s w 0 (((Run.start w).grounded w b).told w) where
  toPaced := .start s w b
  borne := ⟨ht, fun _ => by decide⟩
  budget := .inl rfl

theorem tells_zero (h : s.timeoutMillis ≤ m.lastMillis) : m.Tells s 0 where
  deadline := h
  wakes := by
    rw [Nat.zero_mul]
    exact Nat.zero_le _

/-- The deadline, which is so long behind the start. -/
theorem later_start (w : Surroundings) (h : s.timeoutMillis ≤ m.lastMillis) :
    m.later (Run.start w).clock s.timeoutMillis = .ok s.timeoutMillis := by
  show m.later 0 s.timeoutMillis = _
  rw [later, Nat.zero_add, if_pos h]

/-- A deadline that the clock cannot tell stops the program before it asks. -/
theorem drive_untold (h : m.lastMillis < s.timeoutMillis) (fuel : Nat) :
    m.drive s w fuel (Run.start w) = some (.error .clock) := by
  have hlater : m.later (Run.start w).clock s.timeoutMillis = .error .clock :=
    later_of_lt (Nat.lt_of_lt_of_le h (Nat.le_add_left _ _))
  rw [drive, hlater]

theorem drive_unanswered {e : Error} (h : s.timeoutMillis ≤ m.lastMillis)
    (ha : (w.answers 0).package s = .error e) (fuel : Nat) :
    m.drive s w fuel (Run.start w) = some (.ok (.failed e, (Run.start w).asked w)) := by
  rw [drive, later_start w h, Run.ask_error (r := Run.start w) ha]

theorem drive_answered (h : s.timeoutMillis ≤ m.lastMillis)
    (ha : (w.answers 0).package s = .ok p) (fuel : Nat) :
    m.drive s w fuel (Run.start w) =
      if ((Run.start w).grounded w p).isAsked then
        some (.ok (.cancelled, (Run.start w).grounded w p))
      else m.pollFrom s w s.timeoutMillis p fuel (((Run.start w).grounded w p).told w).shown := by
  rw [drive, later_start w h, Run.ask_ok (r := Run.start w) ha]
  rfl

/-- **A watch on a machine is the watch that is counted exactly**, as far as it is borne. -/
theorem drive_makes (hs : s.InWords) (w : Surroundings) (fuel : Nat) :
    Makes m s (Run.drive s w fuel (Run.start w)) (m.drive s w fuel (Run.start w)) := by
  by_cases ht : s.timeoutMillis ≤ m.lastMillis
  · have hzero : m.Bears s 0 0 := ⟨tells_zero ht, fun _ => by decide⟩
    cases ha : (w.answers 0).package s with
    | error e =>
      rw [Run.drive_unanswered (r := Run.start w) fuel ha, drive_unanswered ht ha]
      exact .borne (.failed e) ((Run.start w).asked w) hzero
    | ok p =>
      rw [Run.drive_answered (r := Run.start w) fuel ha, drive_answered ht ha]
      cases hask : ((Run.start w).grounded w p).isAsked with
      | true => exact .borne .cancelled ((Run.start w).grounded w p) hzero
      | false => exact (Kept.start (tells_zero ht) p).pollFrom_makes hs fuel 0
  · rw [drive_untold (Nat.not_le.1 ht)]
    cases Run.drive s w fuel (Run.start w) with
    | none => exact .unended _ fun _ h => nomatch h
    | some ended => exact .stopped ended.1 ended.2 .clock fun hb => ht hb.deadline

variable {fuel : Nat} {rep rep' : Report}

/-- **A watch has a report on a machine** just if it has one where it is counted exactly and the
    machine bears that; then it is what is shown of it. -/
theorem run?_eq_ok_iff (hs : s.InWords) :
    m.run? s w fuel = some (.ok rep) ↔
      ∃ rep', Watch.run? s w fuel = some rep' ∧ m.Bears s rep'.polls rep'.sleeps ∧
        rep = rep'.shown := by
  unfold run? Watch.run?
  have hmakes := drive_makes (m := m) hs w fuel
  generalize Run.drive s w fuel (Run.start w) = counted at hmakes ⊢
  generalize m.drive s w fuel (Run.start w) = made at hmakes ⊢
  cases hmakes with
  | borne o r hb =>
    obtain ⟨-, -, hpolls, hsleeps, -⟩ := r.report_fields s o
    show some (Except.ok (r.shown.report s o)) = _ ↔ ∃ rep', some (r.report s o) = some rep' ∧ _
    rw [r.report_shown s o]
    constructor
    · intro h
      exact ⟨_, rfl, by rwa [hpolls, hsleeps], (Except.ok.inj (Option.some.inj h)).symm⟩
    · rintro ⟨rep', h, -, rfl⟩
      cases h
      rfl
  | stopped o r overrun hb =>
    obtain ⟨-, -, hpolls, hsleeps, -⟩ := r.report_fields s o
    refine ⟨(fun h => nomatch h), fun ⟨rep', h, hb', _⟩ => ?_⟩
    cases h
    rw [hpolls, hsleeps] at hb'
    exact absurd hb' hb
  | unended made hmade =>
    refine ⟨fun h => ?_, fun ⟨rep', h, _⟩ => nomatch h⟩
    obtain ⟨result, hdrive, hresult⟩ := Option.map_eq_some_iff.1 h
    cases result with
    | error overrun => cases hresult
    | ok ended => exact absurd hdrive (hmade ended)

/-- **Else an addition stops the program.** -/
theorem run?_stopped (hs : s.InWords) (h : Watch.run? s w fuel = some rep')
    (hb : ¬ m.Bears s rep'.polls rep'.sleeps) :
    ∃ overrun, m.run? s w fuel = some (.error overrun) := by
  unfold Watch.run? at h
  unfold run?
  have hmakes := drive_makes (m := m) hs w fuel
  generalize Run.drive s w fuel (Run.start w) = counted at h hmakes
  generalize m.drive s w fuel (Run.start w) = made at hmakes ⊢
  cases hmakes with
  | borne o r hb' =>
    obtain ⟨-, -, hpolls, hsleeps, -⟩ := r.report_fields s o
    cases h
    rw [hpolls, hsleeps] at hb
    exact absurd hb' hb
  | stopped o r overrun _ => exact ⟨overrun, rfl⟩
  | unended made _ => cases h

end Machine

/-! ## 6. Fewer polls than a word can count -/

/-- **What is shown of a watch is the watch**, if a word can count its polls. -/
theorem Run.Course.shown_eq (h : Run.Course s w o r) (hp : r.polls < word32) : r.shown = r := by
  have hstart : (Run.start w).Plain := fun e he => absurd he List.not_mem_nil
  cases h with
  | unanswered e ha => rfl
  | stopped q ha hask => rfl
  | polled q ha hask o r₁ r' hreach hend =>
    have htold : (((Run.start w).grounded w q).told w).Plain :=
      Run.Plain.told (r := (Run.start w).grounded w q) ((hstart.note rfl).note rfl) w
    obtain ⟨k, hk⟩ := (Paced.start s w q).reached hreach
    refine ((htold.reached hreach).ends hend hp).shown_eq hp ?_
    rcases hk.counts hend with ⟨hpolls, hsleeps⟩ | ⟨p, -, -, hpolls, hsleeps | ⟨hsleeps, -⟩⟩ <;>
      omega

theorem shown_of_run? {fuel : Nat} {rep : Report} (h : run? s w fuel = some rep)
    (hp : rep.polls < word32) : rep.shown = rep := by
  obtain ⟨o, r, hc, rfl⟩ := run?_eq_some h
  rw [(r.report_fields s o).2.2.1] at hp
  rw [← r.report_shown s o, hc.shown_eq hp]

/-- **A machine carries a watch** if its clock can tell the times of the watch and a word can count
    its polls. -/
structure Machine.Carries (m : Machine) (s : Settings) (rep : Report) : Prop
    extends Machine.Tells m s rep.sleeps where
  polls : rep.polls < word32

/-- **A watch that a machine carries has its report there.** -/
theorem Machine.run?_of_carries {fuel : Nat} {rep : Report} (hs : s.InWords)
    (h : Watch.run? s w fuel = some rep) (hm : m.Carries s rep) :
    m.run? s w fuel = some (.ok rep) :=
  (run?_eq_ok_iff hs).2 ⟨rep, h, ⟨hm.toTells, fun _ => hm.polls⟩, (shown_of_run? h hm.polls).symm⟩

/-- With a budget a word can count the polls. -/
theorem polls_lt_of_maxPolls {fuel : Nat} {rep : Report} (hs : s.InWords)
    (hmax : s.maxPolls.isSome = true) (h : run? s w fuel = some rep) : rep.polls < word32 := by
  obtain ⟨max, hmax⟩ := Option.isSome_iff_exists.1 hmax
  obtain ⟨o, r, hc, rfl⟩ := run?_eq_some h
  rw [(r.report_fields s o).2.2.1]
  cases hc with
  | unanswered e ha => exact (by decide : 0 < word32)
  | stopped q ha hask => exact (by decide : 0 < word32)
  | polled q ha hask o r₁ r' hreach hend =>
    obtain ⟨k, hk, hbudget⟩ := hreach.counted
      (P := fun k r => Paced s w k r ∧ Run.Budgeted s k) ⟨.start s w q, .inl rfl⟩
      fun _ _ _ hm hround => ⟨hm.1.step hround, hm.1.budgeted hround⟩
    have hword := hbudget.lt_word32 hs hmax
    rcases hk.counts hend with ⟨hpolls, -⟩ | ⟨p, -, -, hpolls, -⟩ <;> omega

end RevisionWatch.Watch
