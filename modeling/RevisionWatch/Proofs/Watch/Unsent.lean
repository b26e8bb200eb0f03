import RevisionWatch.Proofs.Watch.Deciding
import RevisionWatch.Proofs.Watch.Timeline
/-!
# A watch before its first value

`Run.Unsent` says that nothing has been sent to a watch and that everything is still due. A watch
whose first value comes before the agent is told is asked to stop when it looks for the first time
(`FirstValue.isAsked_grounded`); any other comes to every poll that the moment follows, if no poll
before decides, with nothing sent (`FirstValue.arrived`). What the value does to the sleep of the
round in which it comes is said by `FirstValue.sleep_of_query`, `FirstValue.sleep_of_begun` and
`FirstValue.sleep_of_time`.
-/

namespace RevisionWatch.Watch

variable {s : Settings} {w : Surroundings} {b : Package} {m m' : Moment} {r r' : Run}
  {n capacity : Nat}

/-! ## 1. Nothing sent -/

namespace Run

theorem isAsked_asked (h : r.isAsked = true) (w : Surroundings) : (r.asked w).isAsked = true := by
  have hn : (({ r with queries := r.queries + 1 }).note .asked).isAsked = true := h
  exact isAsked_push hn _

/-- A value that is there first asks the watch to stop from the start. -/
theorem isAsked_start (hi : w.inbox = some { capacity })
    (hs : ∃ rest, w.signals.atStart ++ (w.signals.atTimes.takeWhile (·.1 = 0)).map (·.2) =
      .value :: rest) : (start w).isAsked = true := by
  obtain ⟨rest, hs⟩ := hs
  unfold start
  dsimp only
  rw [hs]
  exact isAsked_push_value hi rest

/-- Nothing has been sent to the watch, and everything is still due. -/
structure Unsent (w : Surroundings) (r : Run) : Prop where
  inbox : r.inbox = w.inbox
  due : r.due = w.signals.atTimes

theorem Unsent.isAsked (h : r.Unsent w) (hi : w.inbox = some { capacity }) : r.isAsked = false := by
  refine Bool.eq_false_iff.2 fun hask => ?_
  obtain ⟨i, hsome, hpos⟩ := isAsked_iff.1 hask
  rw [h.inbox, hi] at hsome
  cases hsome
  exact absurd hpos (Nat.lt_irrefl 0)

theorem Unsent.push (h : r.Unsent w) {sent : List Sent} (hs : sent = []) :
    (r.push sent).Unsent w := by
  rw [hs, push_nil]
  exact h

theorem Unsent.asked (h : r.Unsent w) (hs : w.signals.inQuery (r.queries + 1) = []) :
    (r.asked w).Unsent w := by
  have hn : (({ r with queries := r.queries + 1 }).note .asked).Unsent w := ⟨h.inbox, h.due⟩
  exact hn.push hs

theorem Unsent.told (h : r.Unsent w) (hs : w.signals.inFiring = []) : (r.told w).Unsent w := by
  have hn : (({ r with trigger := some w.firing.toOutcome }).note
      (.fired w.firing.toOutcome)).Unsent w := ⟨h.inbox, h.due⟩
  have hf : (r.fire w).Unsent w := hn.push hs
  exact ⟨hf.inbox, hf.due⟩

/-- A value that is sent with a query asks the watch to stop. -/
theorem Unsent.isAsked_asked (h : r.Unsent w) (hi : w.inbox = some { capacity })
    {rest : List Sent} (hs : w.signals.inQuery (r.queries + 1) = .value :: rest) :
    (r.asked w).isAsked = true := by
  unfold Run.asked
  rw [hs]
  exact isAsked_push_value (h.inbox.trans hi) rest

theorem Unsent.unchanged (h : r.Unsent w) (hs : w.signals.inQuery (r.queries + 1) = [])
    (p : Package) : (r.unchanged w p).Unsent w := by
  obtain ⟨hi, hd⟩ := unchanged_inbox w p r
  exact ⟨hi.trans (h.asked hs).inbox, hd.trans h.due⟩

theorem Unsent.resting (h : r.Unsent w) (hs : w.signals.inSleep (r.sleeps + 1) = []) :
    (r.resting w).Unsent w := by
  have hn : (({ r with sleeps := r.sleeps + 1 }).note .slept).Unsent w := ⟨h.inbox, h.due⟩
  exact hn.push hs

theorem overhear_unsent {wake : Nat} {due : List (Nat × Sent)} (h : ∀ q ∈ due, wake < q.1)
    (r : Run) : overhear wake due r = (none, { r with due }) := by
  cases due with
  | nil => rfl
  | cons q due =>
    have hlt : wake < q.1 := h q List.mem_cons_self
    rw [overhear, if_neg (Nat.not_le.2 hlt)]

/-- A watch to which nothing is sent sleeps to the end of its sleep. -/
theorem Unsent.sleep (h : r.Unsent w) (hi : w.inbox = some { capacity })
    (hs : w.signals.inSleep (r.sleeps + 1) = []) (hd : ∀ q ∈ w.signals.atTimes, r.wake s < q.1) :
    (r.sleep s w).1 = false ∧ (r.sleep s w).2.Unsent w := by
  have hr := h.resting hs
  rw [sleep_unasked s (hr.isAsked hi), h.due, overhear_unsent hd]
  exact ⟨rfl, hr.inbox, rfl⟩

/-- What comes at the end of a sleep does not wake a watch, even if it is asked to stop. -/
theorem overhear_late {wake : Nat} : ∀ (due : List (Nat × Sent)) {r : Run},
    (∀ q ∈ due, wake ≤ q.1) → r.isAsked = true →
      (overhear wake due r).1 = none ∧ (overhear wake due r).2.isAsked = true
  | [], r, _, hask => ⟨rfl, hask⟩
  | (t, sent) :: due, r, hlate, hask => by
    have ht : wake ≤ t := hlate (t, sent) List.mem_cons_self
    have hask' : (r.push [sent]).isAsked = true := isAsked_push hask [sent]
    unfold overhear
    by_cases hle : t ≤ wake
    · simp only [hle, Nat.not_lt.2 ht, if_true, decide_false, Bool.and_false,
        Bool.false_eq_true, if_false]
      exact overhear_late due (fun q hq => hlate q (List.mem_cons_of_mem _ hq)) hask'
    · rw [if_neg hle]
      exact ⟨rfl, hask⟩

/-- A value that comes in a sleep wakes the watch; one that comes at the end of it is there when
    the watch looks the next time. -/
theorem overhear_value {t : Nat} (wake : Nat) {later : List (Nat × Sent)}
    (hi : r.inbox = some { capacity }) (hlater : ∀ q ∈ later, t ≤ q.1) :
    (t < wake → (overhear wake ((t, .value) :: later) r).1 = some t) ∧
      (t = wake → (overhear wake ((t, .value) :: later) r).1 = none ∧
        (overhear wake ((t, .value) :: later) r).2.isAsked = true) := by
  have hask : (r.push [.value]).isAsked = true := isAsked_push_value hi []
  constructor
  · intro hlt
    rw [overhear, if_pos (Nat.le_of_lt hlt)]
    simp only [hask, hlt, decide_true, Bool.and_self, if_true]
  · rintro rfl
    rw [overhear, if_pos (Nat.le_refl t)]
    simp only [Nat.lt_irrefl, decide_false, Bool.and_false, Bool.false_eq_true, if_false]
    exact overhear_late later hlater hask

/-- What a value that is due does to a sleep. -/
theorem Unsent.sleep_value {t : Nat} {later : List (Nat × Sent)} (h : (r.resting w).Unsent w)
    (hi : w.inbox = some { capacity }) (hdue : w.signals.atTimes = (t, .value) :: later)
    (hlater : ∀ q ∈ later, t ≤ q.1) (hclock : r.clock < t) :
    (t < r.wake s → (r.sleep s w).1 = true ∧ (r.sleep s w).2.clock = t) ∧
      (t = r.wake s → (r.sleep s w).1 = false ∧ (r.sleep s w).2.isAsked = true) := by
  have hrdue : r.due = (t, .value) :: later := (show r.due = _ from h.due).trans hdue
  obtain ⟨hwakes, hends⟩ := overhear_value (r.wake s) (h.inbox.trans hi) hlater
  obtain ⟨i, d, hframe⟩ := overhear_frame (r.wake s) ((t, .value) :: later) (r.resting w)
  rw [sleep_unasked s (h.isAsked hi), hrdue]
  rcases he : overhear (r.wake s) ((t, .value) :: later) (r.resting w) with ⟨_ | t', r'⟩
  · rw [he] at hwakes hends
    refine ⟨fun hlt => ?_, fun heq => ⟨rfl, (hends heq).2⟩⟩
    cases hwakes hlt
  · rw [he] at hwakes hends hframe
    refine ⟨fun hlt => ?_, fun heq => ?_⟩
    · cases hwakes hlt
      dsimp only at hframe
      have hr' : r'.clock < t := by
        rw [hframe]
        exact hclock
      exact ⟨rfl, Nat.max_eq_right (Nat.le_of_lt hr')⟩
    · cases (hends heq).1

end Run

/-! ## 2. Before the agent is told -/

namespace FirstValue

/-- If the moment follows `n` rounds, then nothing is sent in these rounds. -/
theorem silent (h : FirstValue s w m) (hf : m.Follows s n) (m' : Moment) (hc : m'.Counted)
    (hclock : m'.clock s ≤ s.pollTime n) (hplace : m'.place ≤ 2 * n + 3) :
    w.signals.sentAt m' = [] :=
  h.unsent m' hc (hf.before hclock hplace)

/-- If nothing is sent at the start, a watch starts with everything due. -/
theorem unsent_start (h : FirstValue s w m) (hstart : Moment.start.Before s m)
    (hzero : (Moment.time 0).Before s m) : (Run.start w).Unsent w := by
  have hs : w.signals.atStart = [] := h.unsent .start trivial hstart
  have hnow : w.signals.atTimes.takeWhile (·.1 = 0) = [] := by
    cases hdue : w.signals.atTimes with
    | nil => rfl
    | cons q later =>
      obtain ⟨t, e⟩ := q
      have hmem : (t, e) ∈ w.signals.atTimes := hdue ▸ List.mem_cons_self
      have ht : t ≠ 0 := fun ht => h.not_before hmem (ht ▸ hzero)
      exact List.takeWhile_cons_of_neg (by simpa using ht)
  unfold Run.start
  rw [hs, hnow]
  exact Run.Unsent.push ⟨rfl, rfl⟩ rfl

/-- **A value sent before the agent is told** is there when the watch looks for it. -/
theorem isAsked_grounded (h : FirstValue s w m) (hm : m.PrecedesFiring) :
    ((Run.start w).grounded w b).isAsked = true := by
  obtain ⟨capacity, hi⟩ := h.fresh
  obtain ⟨rest, hsent⟩ := h.sent
  -- the baseline brings nothing but what is sent with its query
  suffices hasked : ((Run.start w).asked w).isAsked = true from hasked
  rcases hm with rfl | rfl | rfl
  · have hs : w.signals.atStart = .value :: rest := hsent
    exact Run.isAsked_asked (Run.isAsked_start hi ⟨_, by rw [hs, List.cons_append]⟩) w
  · have hclock : 0 = (Moment.query 1).clock s := (pollTime_zero s).symm
    have hunsent : (Run.start w).Unsent w :=
      h.unsent_start (.inr ⟨hclock, by decide⟩) (.inr ⟨hclock, by decide⟩)
    exact hunsent.isAsked_asked hi hsent
  · have hs : w.signals.atStart = [] := h.unsent .start trivial (.inr ⟨rfl, by decide⟩)
    obtain ⟨later, hdue⟩ := h.due_of_time
    exact Run.isAsked_asked (Run.isAsked_start hi ⟨_, by rw [hs, hdue]; rfl⟩) w

end FirstValue

/-! ## 3. Behind rounds without anything sent -/

/-- A run of a watch with a baseline, behind `n` rounds. -/
structure Arrived (s : Settings) (w : Surroundings) (b : Package) (n : Nat) (r : Run) : Prop
    extends Paced s w n r where
  baseline : w.answers 0 = .found b
  unasked : ((Run.start w).grounded w b).isAsked = false
  reached : Run.Reached s w b (((Run.start w).grounded w b).told w) r

theorem Arrived.step (h : Arrived s w b n r) (hr : Run.Round s w b r none r') :
    Arrived s w b (n + 1) r' where
  toPaced := h.toPaced.step hr
  baseline := h.baseline
  unasked := h.unasked
  reached := .step r r' h.reached hr

/-- The sleep behind a poll ends when the next poll is put. -/
theorem Paced.wake_eq (h : Paced s w n r) (p : Package) :
    (r.unchanged w p).wake s = s.pollTime (n + 1) := by
  rw [Run.wake, (r.unchanged_fields w p).1, h.clock, Settings.pollTime, Nat.add_one_mul]
  omega

/-! A moment behind `n` rounds lies in the next round or behind it. What becomes of the sleep of
that round is said for each place of the moment. -/

section

variable {t : Nat} (hn : Paced s w n r) (hu : r.Unsent w) (p : Package)

include hn in
theorem Paced.sleeps_unchanged : (r.unchanged w p).sleeps = n :=
  (r.unchanged_fields w p).2.2.2.1.trans hn.sleeps

include hn hu in
/-- A value that comes with the poll wakes the watch at once. -/
theorem FirstValue.sleep_of_query (h : FirstValue s w (.query (n + 2))) :
    ((r.unchanged w p).sleep s w).1 = true ∧
      ((r.unchanged w p).sleep s w).2.clock = s.pollTime n := by
  obtain ⟨capacity, hi⟩ := h.fresh
  obtain ⟨rest, hsent⟩ := h.sent
  have hquery : w.signals.inQuery (r.queries + 1) = .value :: rest := by
    rw [hn.queries]
    exact hsent
  have hasked : (r.unchanged w p).isAsked = true := by
    rw [Run.isAsked_congr (Run.unchanged_inbox w p r).1]
    exact hu.isAsked_asked hi hquery
  have hnoted : (({ r.unchanged w p with sleeps := (r.unchanged w p).sleeps + 1 }).note
      .slept).isAsked = true := hasked
  rw [Run.sleep_asked s (Run.isAsked_push hnoted _)]
  exact ⟨rfl, (r.unchanged_fields w p).1.trans hn.clock⟩

include hn hu in
/-- So does one that comes at the beginning of the sleep. -/
theorem FirstValue.sleep_of_begun (h : FirstValue s w (.sleep (n + 1))) :
    ((r.unchanged w p).sleep s w).1 = true ∧
      ((r.unchanged w p).sleep s w).2.clock = s.pollTime n := by
  obtain ⟨capacity, hi⟩ := h.fresh
  obtain ⟨rest, hsent⟩ := h.sent
  have hquery : w.signals.inQuery (r.queries + 1) = [] := by
    rw [hn.queries]
    exact h.unsent (.query (n + 2)) (Nat.le_add_left 1 _)
      (.inr ⟨rfl, by show 2 * _ < 2 * _ + 3; omega⟩)
  have hsleep : w.signals.inSleep ((r.unchanged w p).sleeps + 1) = .value :: rest := by
    rw [hn.sleeps_unchanged p]
    exact hsent
  have hasked : ((r.unchanged w p).resting w).isAsked = true := by
    unfold Run.resting
    rw [hsleep]
    exact Run.isAsked_push_value ((hu.unchanged hquery p).inbox.trans hi) rest
  rw [Run.sleep_asked s hasked]
  exact ⟨rfl, (r.unchanged_fields w p).1.trans hn.clock⟩

include hn hu in
/-- One that comes at a time in the sleep wakes the watch then; at the very end of the sleep it is
    there when the watch looks the next time. -/
theorem FirstValue.sleep_of_time (h : FirstValue s w (.time t)) (hlt : s.pollTime n < t) :
    (t < s.pollTime (n + 1) → ((r.unchanged w p).sleep s w).1 = true ∧
        ((r.unchanged w p).sleep s w).2.clock = t) ∧
      (t = s.pollTime (n + 1) → ((r.unchanged w p).sleep s w).1 = false ∧
        ((r.unchanged w p).sleep s w).2.isAsked = true) := by
  obtain ⟨capacity, hi⟩ := h.fresh
  obtain ⟨later, hdue⟩ := h.due_of_time
  have hlater : ∀ q ∈ later, t ≤ q.1 := by
    have hrising := h.rising
    rw [hdue] at hrising
    exact (List.pairwise_cons.1 hrising).1
  have hquery : w.signals.inQuery (r.queries + 1) = [] := by
    rw [hn.queries]
    exact h.unsent (.query (n + 2)) (Nat.le_add_left 1 _) (.inl hlt)
  have hresting : ((r.unchanged w p).resting w).Unsent w := by
    refine (hu.unchanged hquery p).resting ?_
    rw [hn.sleeps_unchanged p]
    exact h.unsent (.sleep (n + 1)) (Nat.le_add_left 1 _) (.inl hlt)
  have hclock : (r.unchanged w p).clock < t := by
    rw [(r.unchanged_fields w p).1, hn.clock]
    exact hlt
  rw [← hn.wake_eq p]
  exact hresting.sleep_value hi hdue hlater hclock

include hn hu in
/-- One that comes later leaves the sleep as it is. -/
theorem FirstValue.sleep_of_follows (h : FirstValue s w m) (hf : m.Follows s (n + 1)) :
    ((r.unchanged w p).sleep s w).1 = false ∧ ((r.unchanged w p).sleep s w).2.Unsent w := by
  obtain ⟨capacity, hi⟩ := h.fresh
  have hle := pollTime_mono s (Nat.le_succ n)
  have hquery : w.signals.inQuery (r.queries + 1) = [] := by
    rw [hn.queries]
    exact h.silent hf (.query (n + 2)) (Nat.le_add_left 1 _) hle (by show 2 * _ ≤ _; omega)
  have hsleep : w.signals.inSleep ((r.unchanged w p).sleeps + 1) = [] := by
    rw [hn.sleeps_unchanged p]
    exact h.silent hf (.sleep (n + 1)) (Nat.le_add_left 1 _) hle (Nat.le_refl _)
  have hdue : ∀ q ∈ w.signals.atTimes, (r.unchanged w p).wake s < q.1 := by
    intro q hq
    rw [hn.wake_eq p]
    exact h.lt_due hf hq
  exact (hu.unchanged hquery p).sleep hi hsleep hdue

end

/-- Nothing has been sent when the agent is told, if the moment does not lie before. -/
theorem FirstValue.unsent_grounded (h : FirstValue s w m) (hm : m = .firing ∨ m.Follows s 0) :
    ((Run.start w).grounded w b).Unsent w := by
  -- what comes before the agent is told comes before the moment
  have hbefore {m' : Moment} (hclock : m'.clock s = 0) (hplace : m'.place < 3) :
      m'.Before s m := by
    rcases hm with rfl | hf
    · exact .inr ⟨hclock, hplace⟩
    · refine hf.before ?_ (by omega)
      rw [hclock]
      exact Nat.zero_le _
  have hstart : (Run.start w).Unsent w :=
    h.unsent_start (hbefore rfl (by decide)) (hbefore rfl (by decide))
  have hquery : w.signals.inQuery 1 = [] :=
    h.unsent (.query 1) (Nat.le_refl 1) (hbefore (pollTime_zero s) (by decide))
  have hasked : ((Run.start w).asked w).Unsent w := hstart.asked hquery
  exact ⟨hasked.inbox, hasked.due⟩

/-- Nor when the first poll is put, if the moment lies behind. -/
theorem FirstValue.unsent_told (h : FirstValue s w m) (hf : m.Follows s 0) :
    (((Run.start w).grounded w b).told w).Unsent w :=
  (h.unsent_grounded (.inr hf)).told
    (h.silent hf .firing trivial (Nat.zero_le _) (Nat.le_refl _))

/-- A value that comes while the agent is told is there when the watch looks before its first
    poll. -/
theorem FirstValue.isAsked_told (h : FirstValue s w .firing) :
    (((Run.start w).grounded w b).told w).isAsked = true := by
  obtain ⟨capacity, hi⟩ := h.fresh
  obtain ⟨rest, hsent⟩ := h.sent
  have hs : w.signals.inFiring = .value :: rest := hsent
  have hinbox : ((Run.start w).grounded w b).inbox = some { capacity } :=
    (h.unsent_grounded (.inl rfl)).inbox.trans hi
  have hfired : (((Run.start w).grounded w b).fire w).isAsked = true := by
    unfold Run.fire
    rw [hs]
    exact Run.isAsked_push_value hinbox rest
  exact hfired

/-- Before the first poll, if the moment lies behind the telling of the agent. -/
theorem FirstValue.arrived_zero (h : FirstValue s w m) (hb : w.answers 0 = .found b)
    (hm : m = .firing ∨ m.Follows s 0) :
    Arrived s w b 0 (((Run.start w).grounded w b).told w) := by
  obtain ⟨capacity, hi⟩ := h.fresh
  exact ⟨.start s w b, hb, (h.unsent_grounded hm).isAsked hi, .start⟩

/-- **A watch comes to every poll that the moment follows**, if no poll before decides, and nothing
    has been sent to it. -/
theorem FirstValue.arrived (h : FirstValue s w m) (hb : w.answers 0 = .found b) :
    ∀ n, m.Follows s n → (∀ j, 1 ≤ j → j ≤ n → ¬ Deciding s w b.revision j) →
      ∃ r, Arrived s w b n r ∧ r.Unsent w
  | 0, hf, _ => ⟨_, h.arrived_zero hb (.inr hf), h.unsent_told hf⟩
  | n + 1, hf, hd => by
    obtain ⟨capacity, hi⟩ := h.fresh
    obtain ⟨r, harrived, hunsent⟩ := h.arrived hb n (hf.mono (Nat.le_succ n))
      fun j hpos hj => hd j hpos (Nat.le_succ_of_le hj)
    obtain ⟨p, ha, hv, hm, ht⟩ := harrived.toPaced.undecided (hd (n + 1) (by omega) (by omega))
    obtain ⟨hslept, hunsent'⟩ := h.sleep_of_follows harrived.toPaced hunsent p hf
    have hround : Run.Round s w b r none _ :=
      .slept p (hunsent.isAsked hi) ha hv hm ht hslept
    exact ⟨_, harrived.step hround, hunsent'⟩

end RevisionWatch.Watch
