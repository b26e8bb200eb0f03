import RevisionWatch.Proofs.Watch.Rounds
/-!
# Ties between the clock and the signal

A sleep ends when its time is up or when a value can be read. Where both come together either may be
noticed: `Run.sleep` notices the value if it is there as the sleep begins, and the time if the value
comes at the very end. Here that choice is left open (`Tiebreak`), and it makes no difference: a
sleep leaves the same run behind, and a watch that was not woken by the value finds it when it looks
before the next poll (`Run.sleepBy_agree`). So a watch ends, or does not end, with the same report
however its ties are broken (`runBy?_agree`).
-/

namespace RevisionWatch.Watch

variable {s : Settings} {w : Surroundings} {b p : Package} {r r' : Run}

/-! ## 1. A watch whose ties are broken anyhow -/

/-- How ties are broken: whether the value is noticed where it is there and the time is up, as a
    sleep begins and as it ends. -/
structure Tiebreak where
  atOnce : Run → Bool
  atEnd : Run → Bool

/-- How `Run.sleep` breaks them. -/
def Tiebreak.usual : Tiebreak where
  atOnce _ := true
  atEnd _ := false

namespace Run

/-- A sleep whose ties are broken by `c`. -/
def sleepBy (c : Tiebreak) (s : Settings) (w : Surroundings) (r : Run) : Bool × Run :=
  let rest := r.resting w
  if rest.isAsked then
    if r.wake s ≤ r.clock ∧ c.atOnce rest = false then (false, { rest with clock := r.wake s })
    else (true, rest)
  else
    match overhear (r.wake s) r.due rest with
    | (some t, r') => (true, { r' with clock := max r'.clock t })
    | (none, r') =>
      let woke := { r' with clock := r.wake s }
      (woke.isAsked && c.atEnd woke, woke)

/-- A round up to its sleep: the end of the watch, or the run that goes to sleep. -/
def poll (s : Settings) (w : Surroundings) (b : Package) (r : Run) : (Outcome × Run) ⊕ Run :=
  if r.isAsked then .inl (.cancelled, r)
  else
    match r.ask s w with
    | (.error e, r) => .inl (.failed e, r)
    | (.ok current, r) =>
      let r := { r with polls := r.polls + 1 }
      match verdict b current with
      | .done =>
        .inl (.succeeded b.revision current.revision,
          r.note (.observed b.revision current.revision r.polls))
      | .wrong e => .inl (.failed e, r)
      | .pending =>
        let r := if r.phase = .triggerSent then r.enter .polling else r
        if s.maxPolls.any (· ≤ r.polls) then .inl (.timedOut, r.note (.pollsUsedUp r.polls))
        else if s.timeoutMillis ≤ r.clock then .inl (.timedOut, r.note (.timeUsedUp r.polls))
        else .inr r

/-- Polls until something ends the watch, ties broken by `c`. -/
def pollBy (c : Tiebreak) (s : Settings) (w : Surroundings) (b : Package) :
    Nat → Run → Option (Outcome × Run)
  | 0, _ => none
  | fuel + 1, r =>
    match r.poll s w b with
    | .inl ended => some ended
    | .inr r =>
      let (asked, r) := r.sleepBy c s w
      if asked then some (.cancelled, r) else pollBy c s w b fuel r

/-- A watch from its first query on, ties broken by `c`. -/
def driveBy (c : Tiebreak) (s : Settings) (w : Surroundings) (fuel : Nat) (r : Run) :
    Option (Outcome × Run) :=
  match r.ask s w with
  | (.error e, r) => some (.failed e, r)
  | (.ok baseline, r) =>
    let r := { r.note (.baseline baseline) with baseline := some baseline }
    if r.isAsked then some (.cancelled, r)
    else pollBy c s w baseline fuel ((r.fire w).enter .triggerSent)

end Run

/-- The report of a watch that ends within `fuel` polls, ties broken by `c`. -/
def runBy? (c : Tiebreak) (s : Settings) (w : Surroundings) (fuel : Nat) : Option Report :=
  (Run.driveBy c s w fuel (Run.start w)).map fun (outcome, r) => r.report s outcome

/-! ## 2. The usual way -/

namespace Run

theorem sleepBy_usual (s : Settings) (w : Surroundings) (r : Run) :
    r.sleepBy .usual s w = r.sleep s w := by
  unfold sleepBy
  dsimp only
  cases hask : (r.resting w).isAsked with
  | true =>
    have hnot : ¬ (r.wake s ≤ r.clock ∧ Tiebreak.usual.atOnce (r.resting w) = false) :=
      fun h => Bool.noConfusion h.2
    rw [if_pos rfl, if_neg hnot, sleep_asked s hask]
  | false =>
    rw [if_neg Bool.false_ne_true, sleep_unasked s hask]
    rcases overhear (r.wake s) r.due (r.resting w) with ⟨_ | t, r'⟩
    · exact Prod.ext (Bool.and_false _) rfl
    · rfl

theorem poll_asked (h : r.isAsked = true) : r.poll s w b = .inl (.cancelled, r) := by
  rw [poll, if_pos h]

theorem poll_unanswered {e : Error} (h : r.isAsked = false)
    (ha : (w.answers r.queries).package s = .error e) :
    r.poll s w b = .inl (.failed e, r.asked w) := by
  rw [poll, h, ask_error ha]
  rfl

/-- A round up to its sleep, behind an answer that names the package. -/
theorem poll_polled (h : r.isAsked = false) (ha : (w.answers r.queries).package s = .ok p) :
    r.poll s w b =
      match verdict b p with
      | .done =>
        .inl (.succeeded b.revision p.revision,
          (r.polled w p).note (.observed b.revision p.revision (r.polls + 1)))
      | .wrong e => .inl (.failed e, r.polled w p)
      | .pending =>
        if s.maxPolls.any (· ≤ r.polls + 1) then
          .inl (.timedOut, (r.unchanged w p).note (.pollsUsedUp (r.polls + 1)))
        else if s.timeoutMillis ≤ r.clock then
          .inl (.timedOut, (r.unchanged w p).note (.timeUsedUp (r.polls + 1)))
        else .inr (r.unchanged w p) := by
  rw [poll, h, ask_ok ha]
  simp only [Bool.false_eq_true, if_false]
  show (match verdict b p with
    | .done => Sum.inl (Outcome.succeeded b.revision p.revision,
        (r.polled w p).note (.observed b.revision p.revision (r.polled w p).polls))
    | .wrong e => .inl (.failed e, r.polled w p)
    | .pending =>
      let r' := r.unchanged w p
      if s.maxPolls.any (· ≤ r'.polls) then .inl (.timedOut, r'.note (.pollsUsedUp r'.polls))
      else if s.timeoutMillis ≤ r'.clock then .inl (.timedOut, r'.note (.timeUsedUp r'.polls))
      else .inr r') = _
  simp only [unchanged_fields]
  rfl

/-- `pollFrom` takes a round up to its sleep, and then the sleep. -/
theorem pollFrom_succ (fuel : Nat) (r : Run) :
    pollFrom s w b (fuel + 1) r =
      match r.poll s w b with
      | .inl ended => some ended
      | .inr r' =>
        if (r'.sleep s w).1 then some (.cancelled, (r'.sleep s w).2)
        else pollFrom s w b fuel (r'.sleep s w).2 := by
  cases h : r.isAsked with
  | true =>
    rw [poll_asked h, pollFrom, h]
    rfl
  | false =>
    cases ha : (w.answers r.queries).package s with
    | error e =>
      rw [poll_unanswered h ha, pollFrom, h, ask_error ha]
      rfl
    | ok p =>
      rw [poll_polled h ha, pollFrom_polled fuel h ha]
      cases verdict b p with
      | done => rfl
      | wrong e => rfl
      | pending =>
        dsimp only
        split
        · rfl
        · split <;> rfl

theorem pollBy_usual : ∀ (fuel : Nat) (r : Run),
    pollBy .usual s w b fuel r = pollFrom s w b fuel r
  | 0, _ => rfl
  | fuel + 1, r => by
    rw [pollFrom_succ, pollBy]
    cases r.poll s w b with
    | inl ended => rfl
    | inr r' =>
      dsimp only
      rw [sleepBy_usual, pollBy_usual fuel]

theorem driveBy_unanswered {c : Tiebreak} {fuel : Nat} {e : Error}
    (ha : (w.answers 0).package s = .error e) :
    driveBy c s w fuel (start w) = some (.failed e, (start w).asked w) := by
  rw [driveBy, ask_error (r := start w) ha]

theorem driveBy_answered {c : Tiebreak} {fuel : Nat} (ha : (w.answers 0).package s = .ok p) :
    driveBy c s w fuel (start w) =
      if ((start w).grounded w p).isAsked then some (.cancelled, (start w).grounded w p)
      else pollBy c s w p fuel (((start w).grounded w p).told w) := by
  rw [driveBy, ask_ok (r := start w) ha]
  rfl

end Run

/-- **A watch breaks its ties in the usual way.** -/
theorem runBy?_usual (s : Settings) (w : Surroundings) (fuel : Nat) :
    runBy? .usual s w fuel = run? s w fuel := by
  unfold runBy? run?
  cases ha : (w.answers 0).package s with
  | error e => rw [Run.driveBy_unanswered ha, Run.drive_unanswered (r := Run.start w) fuel ha]
  | ok b =>
    rw [Run.driveBy_answered ha, Run.drive_answered (r := Run.start w) fuel ha, Run.pollBy_usual]

/-! ## 3. Any other way -/

namespace Run

/-- Who goes to sleep has time left. -/
theorem clock_lt_of_poll (hp : r.poll s w b = .inr r') : r'.clock < s.timeoutMillis := by
  cases h : r.isAsked with
  | true =>
    rw [poll_asked h] at hp
    cases hp
  | false =>
    cases ha : (w.answers r.queries).package s with
    | error e =>
      rw [poll_unanswered h ha] at hp
      cases hp
    | ok p =>
      rw [poll_polled h ha] at hp
      split at hp
      · cases hp
      · cases hp
      · split at hp
        · cases hp
        · split at hp
          · cases hp
          · rename_i htime
            cases hp
            rw [(r.unchanged_fields w p).1]
            exact Nat.not_le.1 htime

/-- **A tie makes no difference to the run behind it**, and is open only if the watch is asked to
    stop. -/
theorem sleepBy_agree (c c' : Tiebreak) (h : r.clock < s.timeoutMillis) :
    (r.sleepBy c s w).2 = (r.sleepBy c' s w).2 ∧
      ((r.sleepBy c s w).1 = (r.sleepBy c' s w).1 ∨ (r.sleepBy c s w).2.isAsked = true) := by
  unfold sleepBy
  dsimp only
  cases hask : (r.resting w).isAsked with
  | true =>
    -- where the time is up at once, no time has passed
    have hwake (htime : r.wake s ≤ r.clock) :
        { r.resting w with clock := r.wake s } = r.resting w := by
      have heq : r.wake s = (r.resting w).clock := by
        show r.wake s = r.clock
        unfold wake at htime ⊢
        omega
      rw [heq]
    rw [if_pos rfl, if_pos rfl]
    by_cases htie : r.wake s ≤ r.clock
    · rw [hwake htie]
      split <;> split <;> exact ⟨rfl, .inr hask⟩
    · rw [if_neg fun hc => htie hc.1, if_neg fun hc => htie hc.1]
      exact ⟨rfl, .inl rfl⟩
  | false =>
    rw [if_neg Bool.false_ne_true, if_neg Bool.false_ne_true]
    rcases overhear (r.wake s) r.due (r.resting w) with ⟨_ | t, r'⟩
    · dsimp only
      cases hend : ({ r' with clock := r.wake s } : Run).isAsked with
      | true => exact ⟨rfl, .inr rfl⟩
      | false => exact ⟨rfl, .inl rfl⟩
    · exact ⟨rfl, .inl rfl⟩

/-- Polling that ends does so whichever way its ties are broken, at most one round sooner or
    later. -/
theorem pollBy_agree (c c' : Tiebreak) : ∀ (fuel : Nat) {r : Run} {x : Outcome × Run},
    pollBy c s w b fuel r = some x → ∃ fuel', pollBy c' s w b fuel' r = some x
  | 0, _, _, h => nomatch h
  | fuel + 1, r, x, h => by
    rw [pollBy] at h
    cases hp : r.poll s w b with
    | inl ended =>
      rw [hp] at h
      exact ⟨1, by rw [pollBy, hp]; exact h⟩
    | inr r' =>
      obtain ⟨hsame, hflag⟩ := sleepBy_agree (w := w) c c' (clock_lt_of_poll hp)
      -- what remains after the sleep, for either way
      have hby (fuel' : Nat) : pollBy c' s w b (fuel' + 1) r =
          if (r'.sleepBy c' s w).1 then some (.cancelled, (r'.sleepBy c s w).2)
          else pollBy c' s w b fuel' (r'.sleepBy c s w).2 := by
        rw [pollBy, hp, hsame]
      rw [hp] at h
      dsimp only at h
      cases hw : (r'.sleepBy c s w).1 with
      | true =>
        rw [hw, if_pos rfl] at h
        cases hw' : (r'.sleepBy c' s w).1 with
        | true => exact ⟨1, by rw [hby, hw', if_pos rfl]; exact h⟩
        | false =>
          have hask := hflag.resolve_left (by rw [hw, hw']; exact Bool.noConfusion)
          exact ⟨2, by rw [hby, hw', if_neg Bool.false_ne_true, pollBy, poll_asked hask]; exact h⟩
      | false =>
        rw [hw, if_neg Bool.false_ne_true] at h
        cases hw' : (r'.sleepBy c' s w).1 with
        | true =>
          have hask := hflag.resolve_left (by rw [hw, hw']; exact Bool.noConfusion)
          cases fuel with
          | zero => cases h
          | succ fuel =>
            rw [pollBy, poll_asked hask] at h
            exact ⟨1, by rw [hby, hw', if_pos rfl]; exact h⟩
        | false =>
          obtain ⟨fuel', h'⟩ := pollBy_agree c c' fuel h
          exact ⟨fuel' + 1, by rw [hby, hw', if_neg Bool.false_ne_true]; exact h'⟩

end Run

/-- **How ties are broken does not show in the report**, nor in whether there is one. -/
theorem runBy?_agree (c c' : Tiebreak) (s : Settings) (w : Surroundings) {rep : Report}
    (h : ∃ fuel, runBy? c s w fuel = some rep) : ∃ fuel, runBy? c' s w fuel = some rep := by
  obtain ⟨fuel, h⟩ := h
  obtain ⟨x, hx, hrep⟩ := Option.map_eq_some_iff.1 h
  suffices hends : ∃ fuel', Run.driveBy c' s w fuel' (Run.start w) = some x by
    obtain ⟨fuel', hx'⟩ := hends
    exact ⟨fuel', by rw [runBy?, hx']; exact congrArg some hrep⟩
  cases ha : (w.answers 0).package s with
  | error e =>
    rw [Run.driveBy_unanswered ha] at hx
    exact ⟨0, by rw [Run.driveBy_unanswered ha]; exact hx⟩
  | ok b =>
    rw [Run.driveBy_answered ha] at hx
    by_cases hask : ((Run.start w).grounded w b).isAsked = true
    · rw [if_pos hask] at hx
      exact ⟨0, by rw [Run.driveBy_answered ha, if_pos hask]; exact hx⟩
    · rw [if_neg hask] at hx
      obtain ⟨fuel', hx'⟩ := Run.pollBy_agree c c' fuel hx
      exact ⟨fuel', by rw [Run.driveBy_answered ha, if_neg hask]; exact hx'⟩

end RevisionWatch.Watch
