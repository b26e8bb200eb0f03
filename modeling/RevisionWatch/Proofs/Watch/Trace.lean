import RevisionWatch.Proofs.Watch.Deciding
/-!
# The trace of a watch

A watch puts its first question, tells the agent if it comes to that, and then polls and sleeps in
turn, beginning with a poll (`Acts`); the phases that it reports are one of few sequences
(`Passes`). Nothing is assumed of the settings, of the answers, of the agent, or of when the watch
is asked to stop.

* `Tracing` -- the invariant of the polling: what was done so far, and which phase goes with it;
* `Placed.round` -- a round opens the polling phase exactly with the first poll that shows the
  revision of the baseline;
* `traced_of_ends` -- what was done, the phases, the counters and the findings of a watch that has
  ended belong together.
-/

namespace RevisionWatch.Watch

variable {s : Settings} {w : Surroundings} {b p : Package} {r r' : Run} {n : Nat} {o : Outcome}

/-! ## 1. The language of traces -/

/-- The event is something that the watch does, or the answer to its first question. -/
def Event.isAct : Event → Bool
  | .asked | .baseline _ | .fired _ | .slept => true
  | _ => false

/-- What a watch did, in order. -/
def Report.acts (rep : Report) : List Event :=
  rep.journal.filter Event.isAct

/-- Polls and sleeps in turn, beginning with a poll. -/
inductive Alternates : List Event → Prop where
  | nil : Alternates []
  | poll : Alternates [.asked]
  | wait (es : List Event) (h : Alternates es) : Alternates (.asked :: .slept :: es)

/-- What a watch does whose first answer is `a` and whose agent answers `o`. -/
inductive Acts (a : Answer) (o : Agent.Outcome) : List Event → Prop where
  | unanswered (h : a.isFound = false) : Acts a o [.asked]
  | untold (p : Package) (h : a = .found p) : Acts a o [.asked, .baseline p]
  | told (p : Package) (h : a = .found p) (es : List Event) (hs : Alternates es) :
      Acts a o (.asked :: .baseline p :: .fired o :: es)

/-- A watch does not leave the phase. -/
def Phase.isTerminal : Phase → Bool
  | .succeeded | .timedOut | .failed | .cancelled => true
  | .idle | .triggerSent | .polling => false

theorem Outcome.isTerminal_phase (o : Outcome) : o.phase.isTerminal = true := by
  cases o <;> rfl

/-- The phases of a watch with an outcome. -/
inductive Passes : Outcome → List Phase → Prop where
  | failed (e : Error) : Passes (.failed e) [.idle, .failed]
  | cancelled : Passes .cancelled [.idle, .cancelled]
  | told (o : Outcome) (h : o ≠ .timedOut) : Passes o [.idle, .triggerSent, o.phase]
  | polling (o : Outcome) : Passes o [.idle, .triggerSent, .polling, o.phase]

/-- The phase of the outcome comes last, and no other is terminal. -/
theorem Passes.last {ps : List Phase} (h : Passes o ps) :
    ∃ front, ps = front ++ [o.phase] ∧ ∀ q ∈ front, q.isTerminal = false := by
  cases h with
  | failed e => exact ⟨[.idle], rfl, by decide⟩
  | cancelled => exact ⟨[.idle], rfl, by decide⟩
  | told h => exact ⟨[.idle, .triggerSent], rfl, by decide⟩
  | polling => exact ⟨[.idle, .triggerSent, .polling], rfl, by decide⟩

/-- So many polls, each with a sleep behind it. -/
def rounds (n : Nat) : List Event :=
  (List.replicate n [Event.asked, .slept]).flatten

theorem rounds_succ (n : Nat) : rounds (n + 1) = rounds n ++ [.asked, .slept] := by
  unfold rounds
  rw [List.replicate_succ', List.flatten_append, List.flatten_singleton]

theorem count_rounds : ∀ n : Nat, (rounds n).count .asked = n ∧ (rounds n).count .slept = n
  | 0 => ⟨rfl, rfl⟩
  | n + 1 => by
    obtain ⟨hasked, hslept⟩ := count_rounds n
    rw [rounds_succ, List.count_append, List.count_append, hasked, hslept]
    exact ⟨rfl, rfl⟩

theorem Alternates.rounds_append {es : List Event} (h : Alternates es) :
    ∀ n : Nat, Alternates (rounds n ++ es)
  | 0 => h
  | n + 1 => .wait _ (h.rounds_append n)

/-! ## 2. What is done -/

namespace Run

/-- What the run did so far, in order. -/
def acts (r : Run) : List Event :=
  (r.journal.filter Event.isAct).reverse

theorem acts_note_act (r : Run) {e : Event} (he : e.isAct = true) :
    (r.note e).acts = r.acts ++ [e] := by
  unfold acts note
  rw [List.filter_cons_of_pos he, List.reverse_cons]

theorem acts_note_other (r : Run) {e : Event} (he : e.isAct = false) :
    (r.note e).acts = r.acts := by
  unfold acts note
  rw [List.filter_cons_of_neg (Bool.eq_false_iff.1 he)]

theorem acts_asked (w : Surroundings) (r : Run) : (r.asked w).acts = r.acts ++ [.asked] :=
  acts_note_act _ rfl

theorem acts_unchanged (w : Surroundings) (p : Package) (r : Run) :
    (r.unchanged w p).acts = r.acts ++ [.asked] := by
  unfold acts
  rw [filter_unchanged (fun _ _ => rfl) w p r, List.filter_cons_of_pos rfl, List.reverse_cons]

theorem acts_sleep (s : Settings) (w : Surroundings) (r : Run) :
    (r.sleep s w).2.acts = r.acts ++ [.slept] := by
  unfold acts
  rw [journal_sleep, List.filter_cons_of_pos rfl, List.reverse_cons]

theorem acts_report (s : Settings) (o : Outcome) (r : Run) : (r.report s o).acts = r.acts :=
  filter_report (fun _ _ => rfl) (fun _ => rfl) s o r

theorem transitions_report (s : Settings) (o : Outcome) (r : Run) :
    (r.report s o).transitions = r.transitions.reverse ++ [o.phase] := by
  cases o <;> exact List.reverse_cons

/-- A phase that is not terminal was passed before the end. -/
theorem mem_transitions_report (s : Settings) (o : Outcome) (r : Run) {q : Phase}
    (hq : q.isTerminal = false) : q ∈ (r.report s o).transitions ↔ q ∈ r.transitions := by
  have hne : q ≠ o.phase := fun he => by
    rw [he, o.isTerminal_phase] at hq
    cases hq
  rw [transitions_report, List.mem_append, List.mem_reverse, List.mem_singleton]
  exact or_iff_left hne

theorem baseline_report (s : Settings) (o : Outcome) (r : Run) :
    (r.report s o).baseline = r.baseline := by
  cases o <;> rfl

end Run

/-! ## 3. Which phase goes with it -/

/-- One of the first questions, but not the first itself, was answered with the revision of the
    baseline. -/
def Seen (w : Surroundings) (b : Package) (queries : Nat) : Prop :=
  ∃ k p, 1 ≤ k ∧ k < queries ∧ w.answers k = .found p ∧ p.revision = b.revision

theorem Seen.mono {q q' : Nat} (h : Seen w b q) (hq : q ≤ q') : Seen w b q' := by
  obtain ⟨k, p, hpos, hlt, hfound, hrev⟩ := h
  exact ⟨k, p, hpos, Nat.lt_of_lt_of_le hlt hq, hfound, hrev⟩

theorem seen_succ_of_ne {q : Nat} (h : ∀ p, w.answers q = .found p → p.revision ≠ b.revision) :
    Seen w b (q + 1) ↔ Seen w b q := by
  refine ⟨?_, fun hs => hs.mono (Nat.le_succ q)⟩
  rintro ⟨k, p, hpos, hlt, hfound, hrev⟩
  rcases Nat.lt_succ_iff_lt_or_eq.1 hlt with hlt | rfl
  · exact ⟨k, p, hpos, hlt, hfound, hrev⟩
  · exact absurd hrev (h p hfound)

/-- **The phase of a run that has told the agent**: polling once the revision of the baseline was
    seen again, and before that no sleep. -/
inductive Placed (w : Surroundings) (b : Package) (r : Run) : Prop where
  | told (hseen : ¬ Seen w b r.queries) (hphase : r.phase = .triggerSent)
      (htransitions : r.transitions = [.triggerSent, .idle]) (hsleeps : r.sleeps = 0)
  | polling (hseen : Seen w b r.queries) (hphase : r.phase = .polling)
      (htransitions : r.transitions = [.polling, .triggerSent, .idle])

/-- An answer that is not the revision of the baseline leaves the phase. -/
theorem Placed.other (h : Placed w b r)
    (hne : ∀ p, w.answers r.queries = .found p → p.revision ≠ b.revision)
    (hq : r'.queries = r.queries + 1) (hp : r'.phase = r.phase)
    (ht : r'.transitions = r.transitions) (hs : r'.sleeps = r.sleeps) : Placed w b r' := by
  have hseen : Seen w b r'.queries ↔ Seen w b r.queries := by
    rw [hq]
    exact seen_succ_of_ne hne
  cases h with
  | told hs₀ hp₀ ht₀ hz => exact .told (mt hseen.1 hs₀) (hp.trans hp₀) (ht.trans ht₀) (hs.trans hz)
  | polling hs₀ hp₀ ht₀ => exact .polling (hseen.2 hs₀) (hp.trans hp₀) (ht.trans ht₀)

/-- An answer with the revision of the baseline opens the polling phase, if it is not open. -/
theorem Placed.unchanged (h : Placed w b r) (hpos : 1 ≤ r.queries)
    (ha : w.answers r.queries = .found p) (hrev : p.revision = b.revision) :
    Seen w b (r.unchanged w p).queries ∧ (r.unchanged w p).phase = .polling ∧
      (r.unchanged w p).transitions = [.polling, .triggerSent, .idle] := by
  refine ⟨?_, ?_⟩
  · rw [(Run.unchanged_fields w p r).2.1]
    exact ⟨r.queries, p, hpos, Nat.lt_succ_self _, ha, hrev⟩
  · have hp : (r.polled w p).phase = r.phase := rfl
    have ht : (r.polled w p).transitions = r.transitions := rfl
    unfold Run.unchanged
    dsimp only
    cases h with
    | told _ hphase htransitions _ =>
      rw [if_pos (hp.trans hphase)]
      exact ⟨rfl, congrArg (Phase.polling :: ·) (ht.trans htransitions)⟩
    | polling _ hphase htransitions =>
      have hne : (r.polled w p).phase ≠ .triggerSent := by
        rw [hp, hphase]
        decide
      rw [if_neg hne]
      exact ⟨hp.trans hphase, ht.trans htransitions⟩

/-- A verdict that does not wait is about another revision. -/
theorem revision_ne_of_verdict {k : Nat} (ha : (w.answers k).package s = .ok p)
    (hv : verdict b p ≠ .pending) : ∀ q, w.answers k = .found q → q.revision ≠ b.revision := by
  intro q hq hrev
  rw [package_ok ha] at hq
  cases hq
  exact hv (verdict_same hrev)

/-- A sleep leaves the polling phase as it is. -/
theorem Placed.sleep (h : Seen w b r.queries ∧ r.phase = .polling ∧
      r.transitions = [.polling, .triggerSent, .idle]) :
    Placed w b (r.sleep s w).2 ∧ Seen w b (r.sleep s w).2.queries := by
  obtain ⟨hseen, hphase, ht⟩ := h
  obtain ⟨c, i, d, hframe, -⟩ := Run.sleep_frame s w r
  rw [hframe]
  exact ⟨.polling hseen hphase ht, hseen⟩

/-- **Every round keeps phase and answers together**, whether it ends the watch or not; only a poll
    that shows the revision of the baseline is followed by a time-out. -/
theorem Placed.round {res : Option Outcome} (h : Placed w b r) (hpos : 1 ≤ r.queries)
    (hr : Run.Round s w b r res r') :
    Placed w b r' ∧ (res = some .timedOut → Seen w b r'.queries) := by
  have hopen : ∀ p, (w.answers r.queries).package s = .ok p → verdict b p = .pending → _ :=
    fun p ha hv => h.unchanged hpos (package_ok ha) (verdict_pending_iff.1 hv)
  cases hr with
  | stopped hask => exact ⟨h, fun ho => nomatch ho⟩
  | unanswered e hask ha =>
    have hne : ∀ p, w.answers r.queries = .found p → p.revision ≠ b.revision := fun p hp => by
      rw [hp] at ha
      cases ha
    exact ⟨h.other hne rfl rfl rfl rfl, fun ho => nomatch ho⟩
  | done p hask ha hv =>
    have hne := revision_ne_of_verdict ha (by rw [hv]; exact fun h => nomatch h)
    exact ⟨h.other hne rfl rfl rfl rfl, fun ho => nomatch ho⟩
  | wrong p e hask ha hv =>
    have hne := revision_ne_of_verdict ha (by rw [hv]; exact fun h => nomatch h)
    exact ⟨h.other hne rfl rfl rfl rfl, fun ho => nomatch ho⟩
  | pollsUsedUp p hask ha hv hm =>
    obtain ⟨hseen, hphase, ht⟩ := hopen p ha hv
    exact ⟨.polling hseen hphase ht, fun _ => hseen⟩
  | timeUsedUp p hask ha hv hm htime =>
    obtain ⟨hseen, hphase, ht⟩ := hopen p ha hv
    exact ⟨.polling hseen hphase ht, fun _ => hseen⟩
  | woken p hask ha hv hm htime hs =>
    obtain ⟨hplaced, hseen⟩ := Placed.sleep (hopen p ha hv)
    exact ⟨hplaced, fun _ => hseen⟩
  | slept p hask ha hv hm htime hs =>
    obtain ⟨hplaced, hseen⟩ := Placed.sleep (hopen p ha hv)
    exact ⟨hplaced, fun _ => hseen⟩

/-! ## 4. Rounds -/

/-- **A run in front of a poll**, `n` others being made and slept on, with what it did and where it
    stands. -/
structure Tracing (s : Settings) (w : Surroundings) (b : Package) (n : Nat) (r : Run) : Prop
    extends Paced s w n r where
  baseline : r.baseline = some b
  acts : r.acts = [.asked, .baseline b, .fired w.firing.toOutcome] ++ rounds n
  placed : Placed w b r

theorem Tracing.start (b : Package) :
    Tracing s w b 0 (((Run.start w).grounded w b).told w) where
  toPaced := .start s w b
  baseline := rfl
  acts := rfl
  placed := by
    refine .told ?_ rfl rfl rfl
    rintro ⟨k, p, hpos, hlt, -, -⟩
    exact absurd hlt (Nat.not_lt.2 hpos)

/-- A poll leaves the baseline. -/
theorem Run.Round.baseline {res : Option Outcome} (hr : Run.Round s w b r res r') :
    r'.baseline = r.baseline := by
  have hu := fun p => (r.unchanged_fields w p).2.2.2.2.1
  cases hr with
  | pollsUsedUp p hask ha hv hm => exact hu p
  | timeUsedUp p hask ha hv hm htime => exact hu p
  | woken p hask ha hv hm htime hs => exact (Run.sleptOn s w p r).baseline
  | slept p hask ha hv hm htime hs => exact (Run.sleptOn s w p r).baseline
  | _ => rfl

theorem Tracing.step (h : Tracing s w b n r) (hr : Run.Round s w b r none r') :
    Tracing s w b (n + 1) r' where
  toPaced := h.toPaced.step hr
  baseline := hr.baseline.trans h.baseline
  acts := by
    cases hr with
    | slept p hask ha hv hm htime hs =>
      rw [Run.acts_sleep, Run.acts_unchanged, h.acts, rounds_succ]
      simp only [List.append_assoc, List.cons_append, List.nil_append]
  placed := (h.placed.round (by rw [h.queries]; exact Nat.le_add_left 1 n) hr).1

theorem Tracing.reached {r₀ : Run} (h : Tracing s w b n r₀) (hr : Run.Reached s w b r₀ r) :
    ∃ m, Tracing s w b m r :=
  hr.counted h fun _ _ _ hm hs => hm.step hs

/-- What a run does between two others, as its counters have it. -/
structure Run.Does (es : List Event) (r r' : Run) : Prop where
  acts : r'.acts = r.acts ++ es
  queries : r'.queries = r.queries + es.count .asked
  sleeps : r'.sleeps = r.sleeps + es.count .slept

theorem Run.does_polled (w : Surroundings) (p : Package) (r : Run) :
    Run.Does [.asked] r (r.polled w p) :=
  ⟨Run.acts_asked w r, rfl, rfl⟩

theorem Run.does_unchanged (w : Surroundings) (p : Package) (r : Run) :
    Run.Does [.asked] r (r.unchanged w p) := by
  obtain ⟨-, hqueries, -, hsleeps, -⟩ := r.unchanged_fields w p
  exact ⟨Run.acts_unchanged w p r, hqueries, hsleeps⟩

/-- A last event that is no act adds nothing. -/
theorem Run.Does.note {es : List Event} (h : Run.Does es r r') {e : Event}
    (he : e.isAct = false) : Run.Does es r (r'.note e) :=
  ⟨(Run.acts_note_other r' he).trans h.acts, h.queries, h.sleeps⟩

/-- The round that ends a watch polls at most once and sleeps at most once, the sleep behind the
    poll. -/
theorem Run.Round.does (hr : Run.Round s w b r (some o) r') :
    ∃ es, Alternates es ∧ Run.Does es r r' := by
  cases hr with
  | stopped hask => exact ⟨[], .nil, (List.append_nil _).symm, rfl, rfl⟩
  | unanswered e hask ha => exact ⟨[.asked], .poll, Run.acts_asked w r, rfl, rfl⟩
  | done p hask ha hv => exact ⟨[.asked], .poll, (r.does_polled w p).note rfl⟩
  | wrong p e hask ha hv => exact ⟨[.asked], .poll, r.does_polled w p⟩
  | pollsUsedUp p hask ha hv hm => exact ⟨[.asked], .poll, (r.does_unchanged w p).note rfl⟩
  | timeUsedUp p hask ha hv hm htime => exact ⟨[.asked], .poll, (r.does_unchanged w p).note rfl⟩
  | woken p hask ha hv hm htime hs =>
    have hon := Run.sleptOn s w p r
    refine ⟨[.asked, .slept], .wait [] .nil, ?_, hon.queries, hon.sleeps⟩
    rw [Run.acts_sleep, Run.acts_unchanged, List.append_assoc]
    rfl

/-! ## 5. The whole watch -/

/-- **What belongs together in the report of a watch.** -/
structure Traced (w : Surroundings) (rep : Report) : Prop where
  acts : Acts (w.answers 0) w.firing.toOutcome rep.acts
  queries : rep.queries = rep.acts.count .asked
  sleeps : rep.sleeps = rep.acts.count .slept
  passes : Passes rep.outcome rep.transitions
  last : ∃ front, rep.transitions = front ++ [rep.outcome.phase] ∧
    rep.outcome.phase.isTerminal = true ∧ ∀ q ∈ front, q.isTerminal = false
  firings : rep.firings ≤ 1
  trigger : rep.trigger.isSome = true ↔ Phase.triggerSent ∈ rep.transitions
  fired : Phase.triggerSent ∈ rep.transitions ↔ rep.firings = 1
  baseline : ∀ b, rep.baseline = some b ↔ w.answers 0 = .found b
  polling : Phase.polling ∈ rep.transitions ↔
    ∃ b, w.answers 0 = .found b ∧ Seen w b rep.queries
  unslept : Phase.polling ∉ rep.transitions → rep.sleeps = 0

/-- A run that has told the agent, at its end. -/
structure Run.Told (w : Surroundings) (b : Package) (o : Outcome) (r : Run) : Prop where
  answer : w.answers 0 = .found b
  acts : Acts (w.answers 0) w.firing.toOutcome r.acts
  queries : r.queries = r.acts.count .asked
  sleeps : r.sleeps = r.acts.count .slept
  baseline : r.baseline = some b
  trigger : r.trigger = some w.firing.toOutcome
  firings : r.firings = 1
  placed : Placed w b r
  timedOut : o = .timedOut → Seen w b r.queries

/-- Its phases are told by where it stands. -/
theorem Run.Told.passes (h : r.Told w b o) : Passes o (r.report s o).transitions := by
  rw [r.transitions_report s o]
  cases h.placed with
  | told hseen hphase ht hzero =>
    rw [ht]
    exact .told o fun ho => hseen (h.timedOut ho)
  | polling hseen hphase ht =>
    rw [ht]
    exact .polling o

theorem Run.Told.traced (h : r.Told w b o) : Traced w (r.report s o) := by
  obtain ⟨houtcome, hqueries, -, hsleeps, -, htrigger, hfirings⟩ := r.report_fields s o
  have hpasses : Passes (r.report s o).outcome (r.report s o).transitions := by
    rw [houtcome]
    exact h.passes
  have hsent : Phase.triggerSent ∈ (r.report s o).transitions := by
    rw [r.mem_transitions_report s o rfl]
    cases h.placed with
    | told hseen hphase ht hzero => rw [ht]; decide
    | polling hseen hphase ht => rw [ht]; decide
  have hpolling : Phase.polling ∈ (r.report s o).transitions ↔ Seen w b r.queries := by
    rw [r.mem_transitions_report s o rfl]
    cases h.placed with
    | told hseen hphase ht hzero =>
      rw [ht]
      exact ⟨fun hm => absurd hm (by decide), fun hs => absurd hs hseen⟩
    | polling hseen hphase ht =>
      rw [ht]
      exact ⟨fun _ => hseen, fun _ => by decide⟩
  refine {
    acts := by rw [r.acts_report s o]; exact h.acts
    queries := by rw [hqueries, r.acts_report s o]; exact h.queries
    sleeps := by rw [hsleeps, r.acts_report s o]; exact h.sleeps
    passes := hpasses
    last := ?_
    firings := by rw [hfirings, h.firings]
    trigger := by rw [htrigger, h.trigger]; exact iff_of_true rfl hsent
    fired := by rw [hfirings, h.firings]; exact iff_of_true hsent rfl
    baseline := fun c => ?_
    polling := ?_
    unslept := fun hnot => ?_ }
  · obtain ⟨front, hfront, hq⟩ := hpasses.last
    exact ⟨front, hfront, Outcome.isTerminal_phase _, hq⟩
  · rw [r.baseline_report s o, h.baseline, h.answer]
    exact ⟨fun he => congrArg _ (Option.some.inj he), fun he => congrArg _ (Answer.found.inj he)⟩
  · rw [hpolling, hqueries]
    refine ⟨fun hs => ⟨b, h.answer, hs⟩, ?_⟩
    rintro ⟨c, hc, hs⟩
    rw [h.answer] at hc
    cases hc
    exact hs
  · rw [hsleeps]
    cases h.placed with
    | told hseen hphase ht hzero => exact hzero
    | polling hseen hphase ht => exact absurd (hpolling.2 hseen) hnot

/-- A watch that does not come to tell the agent. -/
theorem traced_of_untold (ho : Passes o [.idle, o.phase])
    (hacts : Acts (w.answers 0) w.firing.toOutcome r.acts) (hasked : r.acts.count .asked = 1)
    (hslept : r.acts.count .slept = 0) (ht : r.transitions = [.idle])
    (htrigger : r.trigger = none) (hfirings : r.firings = 0) (hqueries : r.queries = 1)
    (hsleeps : r.sleeps = 0) (hbaseline : ∀ b, r.baseline = some b ↔ w.answers 0 = .found b) :
    Traced w (r.report s o) := by
  obtain ⟨houtcome, hq, -, hsl, -, htr, hf⟩ := r.report_fields s o
  have hpasses : Passes (r.report s o).outcome (r.report s o).transitions := by
    rw [houtcome, r.transitions_report s o, ht]
    exact ho
  have hsent : Phase.triggerSent ∉ (r.report s o).transitions := by
    rw [r.mem_transitions_report s o rfl, ht]
    decide
  have hpolling : Phase.polling ∉ (r.report s o).transitions := by
    rw [r.mem_transitions_report s o rfl, ht]
    decide
  refine {
    acts := by rw [r.acts_report s o]; exact hacts
    queries := by rw [hq, hqueries, r.acts_report s o, hasked]
    sleeps := by rw [hsl, hsleeps, r.acts_report s o, hslept]
    passes := hpasses
    last := ?_
    firings := by rw [hf, hfirings]; exact Nat.zero_le 1
    trigger := by rw [htr, htrigger]; exact iff_of_false Bool.false_ne_true hsent
    fired := by rw [hf, hfirings]; exact iff_of_false hsent Nat.zero_ne_one
    baseline := fun b => by rw [r.baseline_report s o]; exact hbaseline b
    polling := iff_of_false hpolling ?_
    unslept := fun _ => by rw [hsl, hsleeps] }
  · obtain ⟨front, hfront, hterm⟩ := hpasses.last
    exact ⟨front, hfront, Outcome.isTerminal_phase _, hterm⟩
  · rintro ⟨b, -, k, p, hpos, hlt, -⟩
    rw [hq, hqueries] at hlt
    exact absurd hlt (Nat.not_lt.2 hpos)

/-- **The trace of a watch.** If a watch ends, then whatever it was told and answered and whenever it
    was asked to stop, it did what `Acts` says and passed through phases as `Passes` says, and its
    counters and findings are those of the phases. -/
theorem traced_of_ends (s : Settings) (w : Surroundings) (fuel : Nat) (rep : Report)
    (h : run? s w fuel = some rep) : Traced w rep := by
  obtain ⟨o, r, hc, rfl⟩ := run?_eq_some h
  cases hc with
  | unanswered e ha =>
    have hf : (w.answers 0).isFound = false := isFound_eq_false ha
    refine traced_of_untold (.failed e) (.unanswered hf) rfl rfl rfl rfl ?_ rfl rfl fun b => ?_
    · exact Run.firings_asked w (Run.start w)
    · refine iff_of_false (fun hb => nomatch hb) fun hb => ?_
      rw [hb] at hf
      cases hf
  | stopped p ha hask =>
    refine traced_of_untold .cancelled (.untold p (package_ok ha)) rfl rfl rfl rfl ?_ rfl rfl
      fun b => ?_
    · exact (Run.firings_note ((Run.start w).informed w p) (.baseline p)).trans
        (Run.firings_asked w (Run.start w))
    · rw [package_ok ha]
      exact ⟨fun he => congrArg _ (Option.some.inj he),
        fun he => congrArg _ (Answer.found.inj he)⟩
  | polled p ha hask o r₁ r hr he =>
    obtain ⟨n, hn⟩ := (Tracing.start p).reached hr
    have hpos : 1 ≤ r₁.queries := by
      rw [hn.queries]
      exact Nat.le_add_left 1 n
    obtain ⟨hplaced, htimed⟩ := hn.placed.round hpos he
    obtain ⟨es, hes, hdoes⟩ := he.does
    obtain ⟨hasked, hslept⟩ := count_rounds n
    have hacts : r.acts =
        [.asked, .baseline p, .fired w.firing.toOutcome] ++ (rounds n ++ es) := by
      rw [hdoes.acts, hn.acts, List.append_assoc]
    refine Run.Told.traced (b := p) ⟨package_ok ha, ?_, ?_, ?_, he.baseline.trans hn.baseline,
      he.told.1.trans hn.trigger, he.told.2.trans hn.firings, hplaced, ?_⟩
    · rw [hacts]
      exact .told p (package_ok ha) _ (hes.rounds_append n)
    · rw [hdoes.queries, hn.queries, hacts, List.count_append, List.count_append, hasked]
      exact (congrArg (· + es.count .asked) (Nat.add_comm n 1)).trans (Nat.add_assoc _ _ _)
    · rw [hdoes.sleeps, hn.sleeps, hacts, List.count_append, List.count_append, hslept]
      exact (Nat.zero_add _).symm
    · intro ho
      exact htimed (congrArg some ho)

/-- The agent at the last revision, running. -/
private def lastAgent : Package :=
  ⟨"agent", .last, none, .service true⟩

/-- The agent is told, the revision is seen twice more, and then the package is gone. -/
private def goneAtThirdPoll : Surroundings where
  answers n := if n < 3 then .found lastAgent else .absent
  firing := .outcome (.rejected 503)

theorem traced_gone_at_third_poll :
    ∃ rep, run? ⟨"agent", 5, 60, none⟩ goneAtThirdPoll 4 = some rep ∧
      rep.acts = [.asked, .baseline lastAgent, .fired (.rejected 503), .asked, .slept, .asked,
        .slept, .asked] ∧
      rep.transitions = [.idle, .triggerSent, .polling, .failed] ∧ Traced goneAtThirdPoll rep := by
  have hrun : run? ⟨"agent", 5, 60, none⟩ goneAtThirdPoll 4 =
      some ((run? ⟨"agent", 5, 60, none⟩ goneAtThirdPoll 4).getD default) := by
    decide +kernel
  exact ⟨_, hrun, by decide +kernel, by decide +kernel, traced_of_ends _ _ _ _ hrun⟩

end RevisionWatch.Watch
