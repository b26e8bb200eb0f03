import RevisionWatch.Proofs.Watch.Pace
/-!
# The agent's answer decides nothing

What comes of telling the agent is written down and not looked at again. So two watches that differ
in nothing else run side by side, step by step: they put the same questions, sleep the same sleeps
and end, or do not end, alike. The one is obtained from the other by writing another answer over the
agent's (`Run.retold`), which every step commutes with.

* `Run.Round.retold` -- a round of the one is a round of the other;
* `run?_retold` -- the report of the one is that of the other, the agent's answer overwritten;
* `run_indifferent` -- the two reports agree in everything but that answer, and a crash is reported
  as an agent that cannot be reached.
-/

namespace RevisionWatch.Watch

variable {s : Settings} {w : Surroundings} {b p : Package} {r r' : Run}

/-! ## 1. Another answer of the agent -/

/-- The event, with another answer of the agent if it is the agent's answer. -/
def Event.retold (o : Agent.Outcome) : Event → Event
  | .fired _ => .fired o
  | e => e

/-- The same surroundings, with another answer of the agent. -/
def Surroundings.answering (w : Surroundings) (f : Firing) : Surroundings :=
  { w with firing := f }

/-- The same report, with another answer of the agent where there is one. -/
def Report.retold (o : Agent.Outcome) (rep : Report) : Report :=
  { rep with
    trigger := rep.trigger.map fun _ => o
    journal := rep.journal.map (Event.retold o) }

namespace Run

/-- The same run, with another answer of the agent where there is one. -/
def retold (o : Agent.Outcome) (r : Run) : Run :=
  { r with
    trigger := r.trigger.map fun _ => o
    journal := r.journal.map (Event.retold o) }

variable {f : Firing} {o : Agent.Outcome}

theorem retold_unchanged (w : Surroundings) (f : Firing) (o : Agent.Outcome) (p : Package)
    (r : Run) : (r.retold o).unchanged (w.answering f) p = (r.unchanged w p).retold o := by
  have hpolled : (r.retold o).polled (w.answering f) p = (r.polled w p).retold o := rfl
  have hphase : ((r.polled w p).retold o).phase = (r.polled w p).phase := rfl
  unfold unchanged
  dsimp only
  rw [hpolled, hphase]
  split <;> rfl

/-- What is overheard has nothing to do with the agent. -/
theorem retold_overhear (o : Agent.Outcome) (wake : Nat) : ∀ (due : List (Nat × Sent)) (r : Run),
    overhear wake due (r.retold o) =
      ((overhear wake due r).1, (overhear wake due r).2.retold o)
  | [], _ => rfl
  | (t, sent) :: due, r => by
    have hpush : (r.retold o).push [sent] = (r.push [sent]).retold o := rfl
    have hask : ((r.push [sent]).retold o).isAsked = (r.push [sent]).isAsked := rfl
    unfold overhear
    dsimp only
    rw [hpush, hask]
    by_cases ht : t ≤ wake
    · rw [if_pos ht, if_pos ht]
      split
      · rfl
      · exact retold_overhear o wake due (r.push [sent])
    · rw [if_neg ht, if_neg ht]
      rfl

/-- Nor has a sleep. -/
theorem retold_sleep (s : Settings) (w : Surroundings) (f : Firing) (o : Agent.Outcome)
    (r : Run) :
    (r.retold o).sleep s (w.answering f) = ((r.sleep s w).1, (r.sleep s w).2.retold o) := by
  have hrest : (r.retold o).resting (w.answering f) = (r.resting w).retold o := rfl
  have hask' : ((r.retold o).resting (w.answering f)).isAsked = (r.resting w).isAsked := rfl
  cases hask : (r.resting w).isAsked with
  | true =>
    rw [sleep_asked s hask, sleep_asked s (hask'.trans hask)]
    rfl
  | false =>
    have hwake : (r.retold o).wake s = r.wake s := rfl
    have hdue : (r.retold o).due = r.due := rfl
    rw [sleep_unasked s hask, sleep_unasked s (hask'.trans hask), hrest, hwake, hdue,
      retold_overhear]
    rcases overhear (r.wake s) r.due (r.resting w) with ⟨_ | t, r'⟩ <;> rfl

theorem retold_sleep_unchanged (s : Settings) (w : Surroundings) (f : Firing)
    (o : Agent.Outcome) (p : Package) (r : Run) :
    ((r.retold o).unchanged (w.answering f) p).sleep s (w.answering f) =
      (((r.unchanged w p).sleep s w).1, ((r.unchanged w p).sleep s w).2.retold o) := by
  rw [retold_unchanged, retold_sleep]

/-- **A round is a round whatever the agent has answered.** -/
theorem Round.retold {x : Option Outcome} (h : Round s w b r x r') (f : Firing)
    (o : Agent.Outcome) : Round s (w.answering f) b (r.retold o) x (r'.retold o) := by
  cases h with
  | stopped hask => exact .stopped hask
  | unanswered e hask ha => exact .unanswered e hask ha
  | done p hask ha hv => exact .done p hask ha hv
  | wrong p e hask ha hv => exact .wrong p e hask ha hv
  | pollsUsedUp p hask ha hv hm =>
    have hround : Round s (w.answering f) b (r.retold o) _ _ := .pollsUsedUp p hask ha hv hm
    rw [retold_unchanged] at hround
    exact hround
  | timeUsedUp p hask ha hv hm ht =>
    have hround : Round s (w.answering f) b (r.retold o) _ _ := .timeUsedUp p hask ha hv hm ht
    rw [retold_unchanged] at hround
    exact hround
  | woken p hask ha hv hm ht hs =>
    have hsleep := retold_sleep_unchanged s w f o p r
    have hs' : (((r.retold o).unchanged (w.answering f) p).sleep s (w.answering f)).1 = true := by
      rw [hsleep]
      exact hs
    have hround : Round s (w.answering f) b (r.retold o) _ _ := .woken p hask ha hv hm ht hs'
    rw [hsleep] at hround
    exact hround
  | slept p hask ha hv hm ht hs =>
    have hsleep := retold_sleep_unchanged s w f o p r
    have hs' : (((r.retold o).unchanged (w.answering f) p).sleep s (w.answering f)).1 = false := by
      rw [hsleep]
      exact hs
    have hround : Round s (w.answering f) b (r.retold o) _ _ := .slept p hask ha hv hm ht hs'
    rw [hsleep] at hround
    exact hround

/-- Polling comes to the same, and takes as long. -/
theorem pollFrom_retold (f : Firing) (o : Agent.Outcome) : ∀ (fuel : Nat) (r : Run),
    pollFrom s (w.answering f) b fuel (r.retold o) =
      (pollFrom s w b fuel r).map fun (x, r') => (x, r'.retold o)
  | 0, _ => rfl
  | fuel + 1, r => by
    obtain ⟨x, r', hr⟩ := exists_round s w b r
    cases x with
    | some x => rw [pollFrom_of_ends hr, pollFrom_of_ends (hr.retold f o)]; rfl
    | none =>
      rw [pollFrom_of_goesOn hr, pollFrom_of_goesOn (hr.retold f o)]
      exact pollFrom_retold f o fuel r'

/-- So does a whole watch, from its first question on. -/
theorem drive_retold (w : Surroundings) (f : Firing) (fuel : Nat) (r : Run) :
    drive s (w.answering f) fuel (r.retold f.toOutcome) =
      (drive s w fuel r).map fun (x, r') => (x, r'.retold f.toOutcome) := by
  have hanswer : (w.answering f).answers (r.retold f.toOutcome).queries = w.answers r.queries := rfl
  cases ha : (w.answers r.queries).package s with
  | error e =>
    rw [drive_unanswered fuel ha, drive_unanswered fuel (by rw [hanswer, ha])]
    rfl
  | ok p =>
    have htold : ((r.retold f.toOutcome).grounded (w.answering f) p).told (w.answering f) =
        ((r.grounded w p).told w).retold f.toOutcome := rfl
    have hask : ((r.retold f.toOutcome).grounded (w.answering f) p).isAsked =
        (r.grounded w p).isAsked := rfl
    rw [drive_answered fuel ha, drive_answered fuel (by rw [hanswer, ha]), htold, hask,
      pollFrom_retold]
    split <;> rfl

theorem report_retold (s : Settings) (x : Outcome) (o : Agent.Outcome) (r : Run) :
    (r.retold o).report s x = (r.report s x).retold o := by
  cases x <;> simp [report, retold, Report.retold, enter, note, Event.retold]

end Run

/-- **Another answer of the agent is another answer in the report.** -/
theorem run?_retold (s : Settings) (w : Surroundings) (f : Firing) (fuel : Nat) :
    run? s (w.answering f) fuel = (run? s w fuel).map (Report.retold f.toOutcome) := by
  have hdrive := Run.drive_retold (s := s) w f fuel (Run.start w)
  have hstart : Run.start (w.answering f) = (Run.start w).retold f.toOutcome := rfl
  unfold run?
  rw [hstart, hdrive, Option.map_map, Option.map_map]
  refine congrArg (Option.map · _) (funext fun x => ?_)
  exact Run.report_retold s x.1 f.toOutcome x.2

/-! ## 2. Two reports -/

/-- **Two reports that differ in nothing but what the agent answered**: the answer is there in both
    or in neither, and the journals are the same once it is the same. -/
structure Report.SameButTrigger (rep rep' : Report) : Prop where
  package : rep'.package = rep.package
  outcome : rep'.outcome = rep.outcome
  baseline : rep'.baseline = rep.baseline
  lastKnown : rep'.lastKnown = rep.lastKnown
  polls : rep'.polls = rep.polls
  sleeps : rep'.sleeps = rep.sleeps
  transitions : rep'.transitions = rep.transitions
  elapsed : rep'.elapsedMillis = rep.elapsedMillis
  queries : rep'.queries = rep.queries
  firings : rep'.firings = rep.firings
  trigger : rep'.trigger.isSome = rep.trigger.isSome
  journal : ∀ o, rep'.journal.map (Event.retold o) = rep.journal.map (Event.retold o)

theorem Event.retold_retold (o o' : Agent.Outcome) (e : Event) :
    (e.retold o').retold o = e.retold o := by
  cases e <;> rfl

theorem Report.firings_retold (o : Agent.Outcome) (rep : Report) :
    (rep.retold o).firings = rep.firings := by
  unfold Report.firings Report.retold
  rw [List.countP_map]
  refine congrArg (List.countP · rep.journal) (funext fun e => ?_)
  cases e <;> rfl

theorem Report.same_retold (o : Agent.Outcome) (rep : Report) :
    rep.SameButTrigger (rep.retold o) where
  package := rfl
  outcome := rfl
  baseline := rfl
  lastKnown := rfl
  polls := rfl
  sleeps := rfl
  transitions := rfl
  elapsed := rfl
  queries := rfl
  firings := rep.firings_retold o
  trigger := Option.isSome_map
  journal o' := by
    show (rep.journal.map (Event.retold o)).map (Event.retold o') = _
    rw [List.map_map]
    exact congrArg (List.map · rep.journal) (funext (Event.retold_retold o' o))

/-- A report has the agent's answer, or the agent was not told. -/
theorem trigger_of_ends {fuel : Nat} {rep : Report} (h : run? s w fuel = some rep) :
    rep.trigger = none ∨ rep.trigger = some w.firing.toOutcome := by
  obtain ⟨o, r, hc, rfl⟩ := run?_eq_some h
  rw [(r.report_fields s o).2.2.2.2.2.1]
  cases hc with
  | unanswered e ha => exact .inl rfl
  | stopped p ha hask => exact .inl rfl
  | polled p ha hask o r₁ r hr he =>
    rw [he.told.1, hr.told.1]
    exact .inr rfl

/-- **The agent's answer decides nothing.** Whatever a watch is told and answered and whenever it is
    asked to stop: with two answers of the agent, one of which may be a crash, it does not end or it
    ends with two reports that agree in all else. A crash is reported as an agent that cannot be
    reached. -/
theorem run_indifferent (s : Settings) (w : Surroundings) (f g : Firing) (fuel : Nat) :
    Option.Rel Report.SameButTrigger (run? s (w.answering f) fuel)
        (run? s (w.answering g) fuel) ∧
      ∀ words rep, run? s (w.answering (.crashed words)) fuel = some rep →
        (rep.firings = 0 ∧ rep.trigger = none) ∨
          (rep.firings = 1 ∧
            rep.trigger = some (.unreachable ("trigger task failed: " ++ words))) := by
  refine ⟨?_, fun words rep h => ?_⟩
  · have hsame := run?_retold s (w.answering f) g fuel
    rw [show (w.answering f).answering g = w.answering g from rfl] at hsame
    rw [hsame]
    cases run? s (w.answering f) fuel with
    | none => exact .none
    | some rep => exact .some (rep.same_retold g.toOutcome)
  · have hfirings := firings_eq h
    rcases trigger_of_ends h with htrigger | htrigger
    · rw [htrigger] at hfirings
      exact .inl ⟨hfirings, htrigger⟩
    · rw [htrigger] at hfirings
      exact .inr ⟨hfirings, htrigger⟩

/-- The revision is the next as soon as the agent has been told. -/
private def updatedAtOnce : Surroundings where
  answers n := .found ⟨"agent", if n = 0 then ⟨17, by decide⟩ else ⟨18, by decide⟩, none,
    .service true⟩
  firing := .outcome (.accepted 200)

/-- What a watch comes to whose agent crashes. -/
private def crashReportOfUpdate : Report :=
  (run? ⟨"agent", 5, 60, none⟩ (updatedAtOnce.answering (.crashed "boom")) 1).getD default

theorem crash_indifferent :
    run? ⟨"agent", 5, 60, none⟩ (updatedAtOnce.answering (.crashed "boom")) 1 =
        some crashReportOfUpdate ∧
      crashReportOfUpdate.outcome = .succeeded ⟨17, by decide⟩ ⟨18, by decide⟩ ∧
      crashReportOfUpdate.trigger = some (.unreachable "trigger task failed: boom") ∧
      Option.Rel Report.SameButTrigger (some crashReportOfUpdate)
        (run? ⟨"agent", 5, 60, none⟩ updatedAtOnce 1) := by
  have hrun : run? ⟨"agent", 5, 60, none⟩ (updatedAtOnce.answering (.crashed "boom")) 1 =
      some crashReportOfUpdate := by
    decide +kernel
  obtain ⟨hsame, hcrash⟩ := run_indifferent ⟨"agent", 5, 60, none⟩ updatedAtOnce
    (.crashed "boom") (.outcome (.accepted 200)) 1
  rw [hrun] at hsame
  refine ⟨hrun, by decide +kernel, ?_, hsame⟩
  rcases hcrash "boom" _ hrun with ⟨hnot, -⟩ | ⟨-, htrigger⟩
  · exact absurd hnot (by decide +kernel)
  · exact htrigger

end RevisionWatch.Watch
