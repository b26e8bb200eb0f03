import RevisionWatch.Proofs.Watch.Deciding
/-!
# What a success is made of

A watch that succeeds has asked before it told the agent and told it once; every answer but the last
named the package at the revision it had, and the last named it one step further, its service
running (`SucceededAt`). Here nothing is assumed of what is sent or of how long the watch sleeps:
the rounds keep in order what they ask (`Asking.step`), and only one of them ends in success.
-/

namespace RevisionWatch.Watch

variable {s : Settings} {w : Surroundings} {b p : Package} {r r' : Run} {n : Nat}

/-! ## 1. Exchanges -/

/-- The event is a question, the answer to the first, or the telling of the agent. -/
def Event.isExchange : Event → Bool
  | .asked | .baseline _ | .fired _ => true
  | _ => false

/-- The exchanges of a watch, in order. -/
def Report.exchanges (rep : Report) : List Event :=
  rep.journal.filter Event.isExchange

namespace Run

/-- The exchanges so far, the last in front. -/
def exchanges (r : Run) : List Event :=
  r.journal.filter Event.isExchange

theorem exchanges_note (r : Run) (e : Event) :
    (r.note e).exchanges = if e.isExchange then e :: r.exchanges else r.exchanges :=
  List.filter_cons

theorem exchanges_asked (w : Surroundings) (r : Run) :
    (r.asked w).exchanges = .asked :: r.exchanges :=
  exchanges_note _ .asked

theorem exchanges_unchanged (w : Surroundings) (p : Package) (r : Run) :
    (r.unchanged w p).exchanges = .asked :: r.exchanges :=
  filter_unchanged (fun _ _ => rfl) w p r

theorem exchanges_sleep (s : Settings) (w : Surroundings) (r : Run) :
    (r.sleep s w).2.exchanges = r.exchanges := by
  unfold exchanges
  rw [journal_sleep]
  rfl

theorem exchanges_report (s : Settings) (o : Outcome) (r : Run) :
    (r.report s o).exchanges = r.exchanges.reverse :=
  filter_report (fun _ _ => rfl) (fun _ => rfl) s o r

end Run

/-! ## 2. Rounds that wait -/

/-- **A run behind `n` rounds that waited**: their answers and the first named the package at the
    revision of the baseline, and every question but the first came after the agent was told. -/
structure Asking (s : Settings) (w : Surroundings) (b : Package) (n : Nat) (r : Run) : Prop
    extends Paced s w n r where
  exchanges : r.exchanges =
    List.replicate n .asked ++ [.fired w.firing.toOutcome, .baseline b, .asked]
  same : ∀ k ≤ n, ∃ p, w.answers k = .found p ∧ p.revision = b.revision

theorem Asking.start (ha : w.answers 0 = .found b) :
    Asking s w b 0 (((Run.start w).grounded w b).told w) where
  toPaced := .start s w b
  exchanges := rfl
  same _ hk := ⟨b, Nat.le_zero.1 hk ▸ ha, rfl⟩

/-- A round that is slept on waits once more. -/
theorem Asking.step (h : Asking s w b n r) (hs : Run.Round s w b r none r') :
    Asking s w b (n + 1) r' where
  toPaced := h.toPaced.step hs
  exchanges := by
    cases hs with
    | slept p hask ha hv hm ht hslept =>
      rw [Run.exchanges_sleep, Run.exchanges_unchanged, h.exchanges]
      rfl
  same k hk := by
    cases hs with
    | slept p hask ha hv hm ht hslept =>
      rcases Nat.le_succ_iff.1 hk with hk | rfl
      · exact h.same k hk
      · rw [h.queries] at ha
        exact ⟨p, package_ok ha, verdict_pending_iff.1 hv⟩

theorem Asking.reached {r₀ : Run} (h : Asking s w b n r₀) (hr : Run.Reached s w b r₀ r) :
    ∃ m, Asking s w b m r :=
  hr.counted h fun _ _ _ hm hs => hm.step hs

/-! ## 3. Success -/

/-- **What a success with poll `k` is made of.** -/
structure SucceededAt (w : Surroundings) (before after : Revision) (k : Nat) (rep : Report) :
    Prop where
  polled : 1 ≤ k
  queries : rep.queries = k + 1
  firings : rep.firings = 1
  exchanges : ∃ b, b.revision = before ∧ rep.exchanges =
    [.asked, .baseline b, .fired w.firing.toOutcome] ++ List.replicate k .asked
  waiting : ∀ j < k, ∃ p, w.answers j = .found p ∧ p.revision = before
  deciding : ∃ p, w.answers k = .found p ∧ p.revision = after ∧ p.isRunning = true
  step : after.number = before.number + 1

/-- **A watch that ends in success has waited for it.** -/
theorem succeededAt_of_run? {fuel : Nat} {rep : Report} {before after : Revision}
    (h : run? s w fuel = some rep) (ho : rep.outcome = .succeeded before after) :
    ∃ k, SucceededAt w before after k rep := by
  obtain ⟨o, r', hc, rfl⟩ := run?_eq_some h
  obtain ⟨houtcome, hqueries, -, -, -, -, hfirings⟩ := r'.report_fields s o
  rw [houtcome] at ho
  subst ho
  cases hc with
  | polled b ha h o r r' hr he =>
    obtain ⟨n, hn⟩ := (Asking.start (package_ok ha)).reached hr
    have hfired := he.told.2.trans hn.firings
    cases he with
    | done p hask hans hv =>
      obtain ⟨hstep, hrunning⟩ := verdict_done_iff.1 hv
      rw [hn.queries] at hans
      refine ⟨n + 1, Nat.le_add_left 1 n, ?_, hfirings.trans hfired, ⟨b, rfl, ?_⟩,
        fun j hj => hn.same j (Nat.le_of_lt_succ hj), ⟨p, package_ok hans, rfl, hrunning⟩, hstep⟩
      · rw [hqueries]
        exact congrArg (· + 1) hn.queries
      · have hlast :
            ((r.polled w p).note (.observed b.revision p.revision (r.polls + 1))).exchanges =
              .asked :: r.exchanges :=
          (Run.exchanges_note (r.polled w p) _).trans (Run.exchanges_asked w r)
        rw [Run.exchanges_report, hlast, hn.exchanges]
        simp [List.replicate_succ']

end RevisionWatch.Watch
