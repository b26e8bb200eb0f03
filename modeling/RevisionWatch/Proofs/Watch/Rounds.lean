import RevisionWatch.Watch.Session
/-!
# A watch, round by round

Polling is a loop with nine ways out. This file says once what a single round can do and derives
everything else about a run from that:

* `asked`, `polled`, `unchanged` -- the run after a question, after an answer that names the
  package, and after an answer that shows the revision it had before;
* `Round` -- one round, a constructor for every way it can end and one for a sleep that is slept
  to its end; every run has a round (`exists_round`), and `pollFrom` takes it
  (`pollFrom_of_ends`, `pollFrom_of_goesOn`);
* `Reached` -- the runs that rounds lead to; a watch that ends does so by a round from such a run
  (`pollFrom_eq_some`);
* `sleep_frame` -- a sleep moves the clock, counts itself, and lets signals in; nothing else;
* `isAsked_iff` -- a watch is asked to stop as long as there is a value it has not read.
-/

namespace RevisionWatch.Watch

variable {s : Settings} {w : Surroundings} {b : Package}

/-- The agent is told. -/
def Event.isFired : Event → Bool
  | .fired _ => true
  | _ => false

namespace Run

/-! ## 1. Reports -/

/-- How often the agent has been told. -/
def firings (r : Run) : Nat :=
  r.journal.countP Event.isFired

theorem firings_note (r : Run) (e : Event) :
    (r.note e).firings = r.firings + if e.isFired then 1 else 0 :=
  List.countP_cons

theorem firings_report (s : Settings) (o : Outcome) (r : Run) :
    (r.report s o).firings = r.firings := by
  have hp : (fun e : Event => match e with | .fired _ => true | _ => false) = Event.isFired := by
    funext e
    cases e <;> rfl
  unfold Report.firings report firings
  rw [← hp]
  simp only [List.countP_reverse]
  cases o <;> rfl

/-- A report says what the run has found and counted. -/
@[simp] theorem report_fields (s : Settings) (o : Outcome) (r : Run) :
    (r.report s o).outcome = o ∧ (r.report s o).queries = r.queries ∧
      (r.report s o).polls = r.polls ∧ (r.report s o).sleeps = r.sleeps ∧
      (r.report s o).elapsedMillis = r.clock ∧ (r.report s o).trigger = r.trigger ∧
      (r.report s o).firings = r.firings := by
  refine ⟨?_, ?_, ?_, ?_, ?_, ?_, firings_report s o r⟩ <;> cases o <;> rfl

/-- What a report writes to the journal is a move to the last phase and the cause of a failure. -/
theorem filter_report {f : Event → Bool} (hmoved : ∀ q q', f (.moved q q') = false)
    (hfailed : ∀ e, f (.failed e) = false) (s : Settings) (o : Outcome) (r : Run) :
    (r.report s o).journal.filter f = (r.journal.filter f).reverse := by
  rw [← List.filter_reverse]
  cases o <;> simp [report, enter, note, hmoved, hfailed]

/-! ## 2. Questions and answers -/

/-- The run when a question has been put and what is sent meanwhile has arrived. -/
def asked (w : Surroundings) (r : Run) : Run :=
  (({ r with queries := r.queries + 1 }).note .asked).push (w.signals.inQuery (r.queries + 1))

@[simp] theorem firings_asked (w : Surroundings) (r : Run) : (r.asked w).firings = r.firings :=
  firings_note _ .asked

/-- The run when an answer has named the package. -/
def informed (w : Surroundings) (p : Package) (r : Run) : Run :=
  { r.asked w with lastKnown := some p }

theorem ask_ok {r : Run} {p : Package} (h : (w.answers r.queries).package s = .ok p) :
    r.ask s w = (.ok p, r.informed w p) := by
  simp only [ask, h]
  rfl

theorem ask_error {r : Run} {e : Error} (h : (w.answers r.queries).package s = .error e) :
    r.ask s w = (.error e, r.asked w) := by
  simp only [ask, h]
  rfl

/-- The run when a poll has named the package. -/
def polled (w : Surroundings) (p : Package) (r : Run) : Run :=
  { r.informed w p with polls := r.polls + 1 }

/-- The run when a poll has shown the revision that is waited out. -/
def unchanged (w : Surroundings) (p : Package) (r : Run) : Run :=
  let r := r.polled w p
  if r.phase = .triggerSent then r.enter .polling else r

/-- Such a poll opens the polling phase, or it does nothing more than any poll. -/
theorem unchanged_cases (w : Surroundings) (p : Package) (r : Run) :
    r.unchanged w p = r.polled w p ∨ r.unchanged w p = (r.polled w p).enter .polling := by
  unfold unchanged
  dsimp only
  split
  · exact .inr rfl
  · exact .inl rfl

/-- A poll that shows the old revision counts as one poll and one question, and may open the polling
    phase. -/
@[simp] theorem unchanged_fields (w : Surroundings) (p : Package) (r : Run) :
    (r.unchanged w p).clock = r.clock ∧ (r.unchanged w p).queries = r.queries + 1 ∧
      (r.unchanged w p).polls = r.polls + 1 ∧ (r.unchanged w p).sleeps = r.sleeps ∧
      (r.unchanged w p).baseline = r.baseline ∧ (r.unchanged w p).lastKnown = some p ∧
      (r.unchanged w p).trigger = r.trigger ∧ (r.unchanged w p).firings = r.firings := by
  rcases unchanged_cases w p r with h | h
  · rw [h]
    exact ⟨rfl, rfl, rfl, rfl, rfl, rfl, rfl, firings_asked w r⟩
  · rw [h]
    refine ⟨rfl, rfl, rfl, rfl, rfl, rfl, rfl, ?_⟩
    exact (firings_note (r.polled w p) _).trans (firings_asked w r)

/-- An answer brings nothing to the inbox. -/
theorem unchanged_inbox (w : Surroundings) (p : Package) (r : Run) :
    (r.unchanged w p).inbox = (r.asked w).inbox ∧ (r.unchanged w p).due = r.due := by
  rcases unchanged_cases w p r with h | h <;> rw [h] <;> exact ⟨rfl, rfl⟩

/-- What such a poll writes to the journal, apart from a move to another phase. -/
theorem filter_unchanged {f : Event → Bool} (hf : ∀ q q', f (.moved q q') = false)
    (w : Surroundings) (p : Package) (r : Run) :
    (r.unchanged w p).journal.filter f = (Event.asked :: r.journal).filter f := by
  rcases unchanged_cases w p r with h | h
  · rw [h]
    rfl
  · rw [h]
    exact List.filter_cons_of_neg (by rw [hf]; exact Bool.false_ne_true)

/-- The run when the baseline is known. -/
def grounded (w : Surroundings) (p : Package) (r : Run) : Run :=
  { (r.informed w p).note (.baseline p) with baseline := some p }

/-- The run when the agent has been told. -/
def told (w : Surroundings) (r : Run) : Run :=
  (r.fire w).enter .triggerSent

/-! ## 3. The inbox -/

/-- A watch is asked to stop by a value that it has not read. -/
theorem isAsked_iff {r : Run} : r.isAsked = true ↔ ∃ i, r.inbox = some i ∧ 0 < i.unread := by
  have hasks (i : Inbox) : i.receive.1.asks = true ↔ 0 < i.unread := by
    unfold Inbox.receive
    split
    · simp only [Receipt.asks, true_iff]
      omega
    · split
      · rename_i hpos
        exact iff_of_true rfl hpos
      · rename_i hzero
        refine iff_of_false ?_ hzero
        cases i.closed <;> exact Bool.false_ne_true
  unfold isAsked
  simp only [Option.any_eq_true, hasks]

theorem isAsked_congr {r r' : Run} (h : r'.inbox = r.inbox) : r'.isAsked = r.isAsked := by
  rw [isAsked, h, isAsked]

theorem push_nil (r : Run) : r.push [] = r := by
  have hmap : r.inbox.map (fun i => List.foldl Inbox.push i []) = r.inbox := by simp
  rw [push, hmap]

theorem push_cons (r : Run) (e : Sent) (sent : List Sent) :
    r.push (e :: sent) = (r.push [e]).push sent := by
  simp only [push, Option.map_map]
  rfl

theorem unread_le_foldl (sent : List Sent) (i : Inbox) :
    i.unread ≤ (sent.foldl Inbox.push i).unread := by
  induction sent generalizing i with
  | nil => exact Nat.le_refl _
  | cons e sent ih =>
    refine Nat.le_trans ?_ (ih (i.push e))
    cases e with
    | value =>
      show i.unread ≤ (if i.closed = true then i else { i with unread := i.unread + 1 }).unread
      split
      · exact Nat.le_refl _
      · exact Nat.le_succ _
    | closing => exact Nat.le_refl _

/-- Once it is asked to stop, a watch is so whatever is sent. -/
theorem isAsked_push {r : Run} (h : r.isAsked = true) (sent : List Sent) :
    (r.push sent).isAsked = true := by
  obtain ⟨i, hi, hpos⟩ := isAsked_iff.1 h
  have hpos' : 0 < (sent.foldl Inbox.push i).unread :=
    Nat.lt_of_lt_of_le hpos (unread_le_foldl sent i)
  refine isAsked_iff.2 ⟨_, ?_, hpos'⟩
  rw [push, hi]
  rfl

/-- A value that comes to a fresh inbox asks the watch to stop. -/
theorem isAsked_push_value {r : Run} {capacity : Nat} (hi : r.inbox = some { capacity })
    (rest : List Sent) : (r.push (.value :: rest)).isAsked = true := by
  rw [push_cons]
  refine isAsked_push (isAsked_iff.2 ⟨{ capacity, unread := 1 }, ?_, Nat.one_pos⟩) rest
  rw [push, hi]
  rfl

/-! ## 4. Sleeping -/

/-- What is sent in a sleep changes the inbox and what is still due, and nothing else. -/
theorem overhear_frame (wake : Nat) : ∀ (due : List (Nat × Sent)) (r : Run),
    ∃ i d, (overhear wake due r).2 = { r with inbox := i, due := d }
  | [], r => ⟨r.inbox, [], rfl⟩
  | (t, sent) :: due, r => by
    unfold overhear
    by_cases ht : t ≤ wake
    · simp only [ht, if_true]
      split
      · exact ⟨_, _, rfl⟩
      · obtain ⟨i, d, h⟩ := overhear_frame wake due (r.push [sent])
        exact ⟨i, d, h⟩
    · simp only [ht, if_false]
      exact ⟨r.inbox, _, rfl⟩

/-- When a sleep that begins now would end. -/
def wake (s : Settings) (r : Run) : Nat :=
  min (r.clock + s.intervalMillis) s.timeoutMillis

/-- The run at the beginning of a sleep. -/
def resting (w : Surroundings) (r : Run) : Run :=
  (({ r with sleeps := r.sleeps + 1 }).note .slept).push (w.signals.inSleep (r.sleeps + 1))

theorem sleep_asked {r : Run} (s : Settings) (h : (r.resting w).isAsked = true) :
    r.sleep s w = (true, r.resting w) := by
  show (if (r.resting w).isAsked then _ else _) = _
  rw [h]
  rfl

theorem sleep_unasked {r : Run} (s : Settings) (h : (r.resting w).isAsked = false) :
    r.sleep s w =
      match overhear (r.wake s) r.due (r.resting w) with
      | (some t, r') => (true, { r' with clock := max r'.clock t })
      | (none, r') => (false, { r' with clock := r.wake s }) := by
  show (if (r.resting w).isAsked then _ else _) = _
  rw [h]
  rfl

/-- **What a sleep changes**: the clock, the count, the journal, and what has arrived. One that is
    slept to its end ends at `wake`. -/
theorem sleep_frame (s : Settings) (w : Surroundings) (r : Run) : ∃ c i d,
    (r.sleep s w).2 = { r with
      clock := c, sleeps := r.sleeps + 1, inbox := i, due := d, journal := .slept :: r.journal } ∧
    ((r.sleep s w).1 = false → c = r.wake s) := by
  cases hask : (r.resting w).isAsked with
  | true =>
    rw [sleep_asked s hask]
    exact ⟨r.clock, _, r.due, rfl, fun h => by cases h⟩
  | false =>
    obtain ⟨i, d, h⟩ := overhear_frame (r.wake s) r.due (r.resting w)
    rw [sleep_unasked s hask]
    rcases he : overhear (r.wake s) r.due (r.resting w) with ⟨_ | t, r'⟩
    · rw [he] at h
      subst h
      exact ⟨_, i, d, rfl, fun _ => rfl⟩
    · rw [he] at h
      subst h
      exact ⟨_, i, d, rfl, fun h => by cases h⟩

theorem journal_sleep (s : Settings) (w : Surroundings) (r : Run) :
    (r.sleep s w).2.journal = .slept :: r.journal := by
  obtain ⟨c, i, d, h, -⟩ := sleep_frame s w r
  rw [h]

/-- **What a poll on which the watch sleeps adds up to**, whether the sleep is slept to its end or
    not. -/
structure SleptOn (p : Package) (r r' : Run) : Prop where
  queries : r'.queries = r.queries + 1
  polls : r'.polls = r.polls + 1
  sleeps : r'.sleeps = r.sleeps + 1
  baseline : r'.baseline = r.baseline
  lastKnown : r'.lastKnown = some p
  trigger : r'.trigger = r.trigger
  firings : r'.firings = r.firings

theorem sleptOn (s : Settings) (w : Surroundings) (p : Package) (r : Run) :
    SleptOn p r ((r.unchanged w p).sleep s w).2 := by
  obtain ⟨hclock, hqueries, hpolls, hsleeps, hbaseline, hlast, htrigger, hfirings⟩ :=
    unchanged_fields w p r
  obtain ⟨c, i, d, h, _⟩ := sleep_frame s w (r.unchanged w p)
  rw [h]
  exact ⟨hqueries, hpolls, congrArg (· + 1) hsleeps, hbaseline, hlast, htrigger,
    (firings_note (r.unchanged w p) .slept).trans hfirings⟩

/-! ## 5. Rounds -/

/-- The polls that a watch may make are used up. -/
def PollsUsedUp (s : Settings) (polls : Nat) : Prop :=
  ∃ m, s.maxPolls = some m ∧ m ≤ polls

theorem any_maxPolls (s : Settings) (n : Nat) :
    s.maxPolls.any (· ≤ n) = true ↔ PollsUsedUp s n := by
  unfold PollsUsedUp
  cases s.maxPolls with
  | none => simp
  | some m => simp

/-- **One round of polling**: what it comes to, and the run behind it. A round without an outcome
    is one that sleeps to the end of its sleep. -/
inductive Round (s : Settings) (w : Surroundings) (b : Package) (r : Run) :
    Option Outcome → Run → Prop where
  | stopped (h : r.isAsked = true) : Round s w b r (some .cancelled) r
  | unanswered (e : Error) (h : r.isAsked = false)
      (ha : (w.answers r.queries).package s = .error e) :
      Round s w b r (some (.failed e)) (r.asked w)
  | done (p : Package) (h : r.isAsked = false) (ha : (w.answers r.queries).package s = .ok p)
      (hv : verdict b p = .done) :
      Round s w b r (some (.succeeded b.revision p.revision))
        ((r.polled w p).note (.observed b.revision p.revision (r.polls + 1)))
  | wrong (p : Package) (e : Error) (h : r.isAsked = false)
      (ha : (w.answers r.queries).package s = .ok p) (hv : verdict b p = .wrong e) :
      Round s w b r (some (.failed e)) (r.polled w p)
  | pollsUsedUp (p : Package) (h : r.isAsked = false)
      (ha : (w.answers r.queries).package s = .ok p) (hv : verdict b p = .pending)
      (hm : PollsUsedUp s (r.polls + 1)) :
      Round s w b r (some .timedOut) ((r.unchanged w p).note (.pollsUsedUp (r.polls + 1)))
  | timeUsedUp (p : Package) (h : r.isAsked = false)
      (ha : (w.answers r.queries).package s = .ok p) (hv : verdict b p = .pending)
      (hm : ¬ PollsUsedUp s (r.polls + 1)) (ht : s.timeoutMillis ≤ r.clock) :
      Round s w b r (some .timedOut) ((r.unchanged w p).note (.timeUsedUp (r.polls + 1)))
  | woken (p : Package) (h : r.isAsked = false)
      (ha : (w.answers r.queries).package s = .ok p) (hv : verdict b p = .pending)
      (hm : ¬ PollsUsedUp s (r.polls + 1)) (ht : r.clock < s.timeoutMillis)
      (hs : ((r.unchanged w p).sleep s w).1 = true) :
      Round s w b r (some .cancelled) ((r.unchanged w p).sleep s w).2
  | slept (p : Package) (h : r.isAsked = false)
      (ha : (w.answers r.queries).package s = .ok p) (hv : verdict b p = .pending)
      (hm : ¬ PollsUsedUp s (r.polls + 1)) (ht : r.clock < s.timeoutMillis)
      (hs : ((r.unchanged w p).sleep s w).1 = false) :
      Round s w b r none ((r.unchanged w p).sleep s w).2

/-- Every run has a round in front of it. -/
theorem exists_round (s : Settings) (w : Surroundings) (b : Package) (r : Run) :
    ∃ o r', Round s w b r o r' := by
  cases h : r.isAsked with
  | true => exact ⟨_, _, .stopped h⟩
  | false =>
    cases ha : (w.answers r.queries).package s with
    | error e => exact ⟨_, _, .unanswered e h ha⟩
    | ok p =>
      cases hv : verdict b p with
      | done => exact ⟨_, _, .done p h ha hv⟩
      | wrong e => exact ⟨_, _, .wrong p e h ha hv⟩
      | pending =>
        by_cases hm : PollsUsedUp s (r.polls + 1)
        · exact ⟨_, _, .pollsUsedUp p h ha hv hm⟩
        · by_cases ht : s.timeoutMillis ≤ r.clock
          · exact ⟨_, _, .timeUsedUp p h ha hv hm ht⟩
          · cases hs : ((r.unchanged w p).sleep s w).1 with
            | true => exact ⟨_, _, .woken p h ha hv hm (by omega) hs⟩
            | false => exact ⟨_, _, .slept p h ha hv hm (by omega) hs⟩

/-- The step of `pollFrom` behind an answer that names the package. -/
theorem pollFrom_polled {r : Run} {p : Package} (fuel : Nat) (h : r.isAsked = false)
    (ha : (w.answers r.queries).package s = .ok p) :
    pollFrom s w b (fuel + 1) r =
      match verdict b p with
      | .done =>
        some (.succeeded b.revision p.revision,
          (r.polled w p).note (.observed b.revision p.revision (r.polls + 1)))
      | .wrong e => some (.failed e, r.polled w p)
      | .pending =>
        if s.maxPolls.any (· ≤ r.polls + 1) then
          some (.timedOut, (r.unchanged w p).note (.pollsUsedUp (r.polls + 1)))
        else if s.timeoutMillis ≤ r.clock then
          some (.timedOut, (r.unchanged w p).note (.timeUsedUp (r.polls + 1)))
        else if ((r.unchanged w p).sleep s w).1 then
          some (.cancelled, ((r.unchanged w p).sleep s w).2)
        else pollFrom s w b fuel ((r.unchanged w p).sleep s w).2 := by
  rw [pollFrom, h, ask_ok ha]
  simp only [Bool.false_eq_true, if_false]
  show (match verdict b p with
    | .done => some (Outcome.succeeded b.revision p.revision,
        (r.polled w p).note (.observed b.revision p.revision (r.polled w p).polls))
    | .wrong e => some (.failed e, r.polled w p)
    | .pending =>
      let r' := r.unchanged w p
      if s.maxPolls.any (· ≤ r'.polls) then some (.timedOut, r'.note (.pollsUsedUp r'.polls))
      else if s.timeoutMillis ≤ r'.clock then some (.timedOut, r'.note (.timeUsedUp r'.polls))
      else if (r'.sleep s w).1 then some (.cancelled, (r'.sleep s w).2)
      else pollFrom s w b fuel (r'.sleep s w).2) = _
  simp only [unchanged_fields]
  rfl

/-- A round with an outcome ends the polling. -/
theorem pollFrom_of_ends {r r' : Run} {o : Outcome} (h : Round s w b r (some o) r') (fuel : Nat) :
    pollFrom s w b (fuel + 1) r = some (o, r') := by
  cases h with
  | stopped h => rw [pollFrom, h]; rfl
  | unanswered e h ha => rw [pollFrom, h, ask_error ha]; rfl
  | done p h ha hv => rw [pollFrom_polled fuel h ha, hv]
  | wrong p e h ha hv => rw [pollFrom_polled fuel h ha, hv]
  | pollsUsedUp p h ha hv hm =>
    rw [pollFrom_polled fuel h ha, hv]
    simp only [(any_maxPolls s _).2 hm, if_true]
  | timeUsedUp p h ha hv hm ht =>
    rw [pollFrom_polled fuel h ha, hv]
    simp only [mt (any_maxPolls s _).1 hm, ht, if_true]
    rfl
  | woken p h ha hv hm ht hs =>
    rw [pollFrom_polled fuel h ha, hv]
    simp only [mt (any_maxPolls s _).1 hm, Nat.not_le.2 ht, hs, if_true]
    rfl

/-- A round without an outcome is followed by the next. -/
theorem pollFrom_of_goesOn {r r' : Run} (h : Round s w b r none r') (fuel : Nat) :
    pollFrom s w b (fuel + 1) r = pollFrom s w b fuel r' := by
  cases h with
  | slept p h ha hv hm ht hs =>
    rw [pollFrom_polled fuel h ha, hv]
    simp only [mt (any_maxPolls s _).1 hm, Nat.not_le.2 ht, hs]
    rfl

/-! ## 6. Runs of rounds -/

/-- The runs that lie any number of rounds behind the first. -/
inductive Reached (s : Settings) (w : Surroundings) (b : Package) (r₀ : Run) : Run → Prop where
  | start : Reached s w b r₀ r₀
  | step (r r' : Run) (h : Reached s w b r₀ r) (hs : Round s w b r none r') : Reached s w b r₀ r'

theorem Reached.trans {r₀ r r' : Run} (h : Reached s w b r₀ r) (h' : Reached s w b r r') :
    Reached s w b r₀ r' := by
  induction h' with
  | start => exact h
  | step r₁ r₂ _ hs ih => exact .step _ _ ih hs

/-- What holds of a run and a number, and of the next number behind a round, holds of every run that
    rounds lead to and some number. -/
theorem Reached.counted {P : Nat → Run → Prop} {r₀ r : Run} {n : Nat} (hr : Reached s w b r₀ r)
    (h : P n r₀) (hstep : ∀ m r₁ r₂, P m r₁ → Round s w b r₁ none r₂ → P (m + 1) r₂) :
    ∃ m, P m r := by
  induction hr with
  | start => exact ⟨n, h⟩
  | step r₁ r₂ _ hs ih =>
    obtain ⟨m, hm⟩ := ih
    exact ⟨m + 1, hstep m r₁ r₂ hm hs⟩

/-- No round tells the agent. -/
theorem Round.told {r r' : Run} {o : Option Outcome} (h : Round s w b r o r') :
    r'.trigger = r.trigger ∧ r'.firings = r.firings := by
  have hu := fun p => r.unchanged_fields w p
  cases h with
  | stopped _ => exact ⟨rfl, rfl⟩
  | unanswered e _ _ => exact ⟨rfl, firings_asked w r⟩
  | done p _ _ _ => exact ⟨rfl, (firings_note (r.polled w p) _).trans (firings_asked w r)⟩
  | wrong p e _ _ _ => exact ⟨rfl, firings_asked w r⟩
  | pollsUsedUp p _ _ _ _ =>
    obtain ⟨-, -, -, -, -, -, htrigger, hfirings⟩ := hu p
    exact ⟨htrigger, (firings_note (r.unchanged w p) _).trans hfirings⟩
  | timeUsedUp p _ _ _ _ _ =>
    obtain ⟨-, -, -, -, -, -, htrigger, hfirings⟩ := hu p
    exact ⟨htrigger, (firings_note (r.unchanged w p) _).trans hfirings⟩
  | woken p _ _ _ _ _ _ => exact ⟨(sleptOn s w p r).trigger, (sleptOn s w p r).firings⟩
  | slept p _ _ _ _ _ _ => exact ⟨(sleptOn s w p r).trigger, (sleptOn s w p r).firings⟩

theorem Reached.told {r₀ r : Run} (h : Reached s w b r₀ r) :
    r.trigger = r₀.trigger ∧ r.firings = r₀.firings := by
  induction h with
  | start => exact ⟨rfl, rfl⟩
  | step r₁ r₂ _ hr ih => exact ⟨hr.told.1.trans ih.1, hr.told.2.trans ih.2⟩

/-- **Polling that ends does so by a round from a run it has reached.** -/
theorem pollFrom_eq_some : ∀ (fuel : Nat) {r r' : Run} {o : Outcome},
    pollFrom s w b fuel r = some (o, r') → ∃ r₁, Reached s w b r r₁ ∧ Round s w b r₁ (some o) r'
  | 0, _, _, _, h => by cases h
  | fuel + 1, r, r', o, h => by
    obtain ⟨o₁, r₁, hr⟩ := exists_round s w b r
    cases o₁ with
    | some o₁ =>
      rw [pollFrom_of_ends hr] at h
      cases h
      exact ⟨r, .start, hr⟩
    | none =>
      rw [pollFrom_of_goesOn hr] at h
      obtain ⟨r₂, hreach, hend⟩ := pollFrom_eq_some fuel h
      exact ⟨r₂, (Reached.step _ _ .start hr).trans hreach, hend⟩

/-! ## 7. Whole watches -/

theorem drive_unanswered {r : Run} {e : Error} (fuel : Nat)
    (ha : (w.answers r.queries).package s = .error e) :
    drive s w fuel r = some (.failed e, r.asked w) := by
  rw [drive, ask_error ha]

theorem drive_answered {r : Run} {p : Package} (fuel : Nat)
    (ha : (w.answers r.queries).package s = .ok p) :
    drive s w fuel r =
      if (r.grounded w p).isAsked then some (.cancelled, r.grounded w p)
      else pollFrom s w p fuel ((r.grounded w p).told w) := by
  rw [drive, ask_ok ha]
  rfl

/-- **The course of a watch**: no baseline, stopped before the agent is told, or polling that
    ends. -/
inductive Course (s : Settings) (w : Surroundings) : Outcome → Run → Prop where
  | unanswered (e : Error) (ha : (w.answers 0).package s = .error e) :
      Course s w (.failed e) ((start w).asked w)
  | stopped (p : Package) (ha : (w.answers 0).package s = .ok p)
      (h : ((start w).grounded w p).isAsked = true) :
      Course s w .cancelled ((start w).grounded w p)
  | polled (p : Package) (ha : (w.answers 0).package s = .ok p)
      (h : ((start w).grounded w p).isAsked = false) (o : Outcome) (r r' : Run)
      (hr : Reached s w p (((start w).grounded w p).told w) r)
      (he : Round s w p r (some o) r') : Course s w o r'

end Run

/-- **A watch that ends has run its course.** -/
theorem run?_eq_some {fuel : Nat} {rep : Report} (h : run? s w fuel = some rep) :
    ∃ o r, Run.Course s w o r ∧ rep = r.report s o := by
  unfold run? at h
  obtain ⟨⟨o, r⟩, hd, rfl⟩ := Option.map_eq_some_iff.1 h
  refine ⟨o, r, ?_, rfl⟩
  cases ha : (w.answers 0).package s with
  | error e =>
    rw [Run.drive_unanswered (r := Run.start w) fuel ha] at hd
    cases hd
    exact .unanswered e ha
  | ok p =>
    rw [Run.drive_answered (r := Run.start w) fuel ha] at hd
    cases hk : ((Run.start w).grounded w p).isAsked with
    | true =>
      rw [hk] at hd
      cases hd
      exact .stopped p ha hk
    | false =>
      rw [hk] at hd
      obtain ⟨r₁, hreach, hend⟩ := Run.pollFrom_eq_some fuel hd
      exact .polled p ha hk o r₁ r hreach hend

/-- **The agent is told once or not at all.** -/
theorem firings_eq {fuel : Nat} {rep : Report} (h : run? s w fuel = some rep) :
    rep.firings = if rep.trigger.isSome then 1 else 0 := by
  obtain ⟨o, r, hc, rfl⟩ := run?_eq_some h
  obtain ⟨-, -, -, -, -, htrigger, hfirings⟩ := r.report_fields s o
  rw [htrigger, hfirings]
  cases hc with
  | unanswered e ha => rfl
  | stopped p ha h => rfl
  | polled p ha h o r₁ r hr he =>
    obtain ⟨ht₁, hf₁⟩ := hr.told
    obtain ⟨ht, hf⟩ := he.told
    rw [ht, ht₁, hf, hf₁]
    rfl

end RevisionWatch.Watch
