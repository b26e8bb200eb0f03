import RevisionWatch.Proofs.Json.Steps
/-!
# What a reader does not look at

A reader takes its value from the front, and the bytes behind the value could be any others. This
holds as it stands of a reader that knows the end of its value by a byte of the value (`Closed`:
words, texts, containers), and of a number only if something is left that could not continue it
(`Firm`). An error is not so firm, since more bytes may mend it.

* `textBody_closed`, `numberBody_firm` — texts and numbers;
* `skip_append` — a value nobody asks for.

Readers carry a list of bytes along to count their steps, and a longer one does as well, so the
lemmas about steps are stated for any list that is not shorter.
-/

namespace RevisionWatch.Json

variable {α : Type} {bs rest : Bytes} {first : Bool} {next : Option Bytes}

/-! ## 1. Readers -/

/-- What is read does not depend on what stands behind it. -/
def Closed (read : Reader α) : Prop :=
  ∀ ⦃bs a rest⦄, read bs = .ok (a, rest) → ∀ more, read (bs ++ more) = .ok (a, rest ++ more)

/-- What is read does not depend on what stands behind the byte after it. -/
def Firm (read : Reader α) : Prop :=
  ∀ ⦃bs a rest⦄, read bs = .ok (a, rest) → rest ≠ [] →
    ∀ more, read (bs ++ more) = .ok (a, rest ++ more)

theorem Closed.firm {read : Reader α} (h : Closed read) : Firm read :=
  fun _ _ _ hr _ => h hr

theorem afterWord_append {ws : Bytes} (h : afterWord ws bs = .ok rest) (more : Bytes) :
    afterWord ws (bs ++ more) = .ok (rest ++ more) := by
  rw [afterWord_eq_ok] at h ⊢
  rw [h, List.append_assoc]

theorem afterByte_append {wanted : UInt8} (h : afterByte wanted bs = .ok rest) (more : Bytes) :
    afterByte wanted (bs ++ more) = .ok (rest ++ more) := by
  rw [afterByte_eq_ok] at h ⊢
  exact dropBlanks_append h more

theorem nextItem_append (h : nextItem first bs = .ok next) (more : Bytes) :
    nextItem first (bs ++ more) = .ok (next.map (· ++ more)) := by
  rw [nextItem_eq_ok] at h ⊢
  cases h with
  | closed _ rest h => exact .closed first (rest ++ more) (dropBlanks_append h more)
  | opening b rest h hb => exact .opening b (rest ++ more) (dropBlanks_append h more) hb
  | parted rest c rest' h h' hc =>
    exact .parted (rest ++ more) c (rest' ++ more) (dropBlanks_append h more)
      (dropBlanks_append h' more) hc

theorem nextKey_append (h : nextKey first bs = .ok next) (more : Bytes) :
    nextKey first (bs ++ more) = .ok (next.map (· ++ more)) := by
  rw [nextKey_eq_ok] at h ⊢
  cases h with
  | closed _ rest h => exact .closed first (rest ++ more) (dropBlanks_append h more)
  | opening rest h => exact .opening (rest ++ more) (dropBlanks_append h more)
  | parted rest rest' h h' =>
    exact .parted (rest ++ more) (rest' ++ more) (dropBlanks_append h more)
      (dropBlanks_append h' more)

/-! ## 2. Texts -/

theorem hexUnit_closed : Closed hexUnit
  | a :: b :: c :: d :: bs, u, rest, h, more => by
    simp only [List.cons_append]
    rw [hexUnit] at h ⊢
    split at h
    · cases h
      rfl
    · cases h
  | [], _, _, h, _ => nomatch h
  | [_], _, _, h, _ => nomatch h
  | [_, _], _, _, h, _ => nomatch h
  | [_, _, _], _, _, h, _ => nomatch h

theorem numberedChar_closed : Closed numberedChar := by
  intro bs c rest h more
  unfold numberedChar at h
  obtain ⟨⟨u, bs₁⟩, hu, h⟩ := bind_eq_ok h
  unfold numberedChar
  rw [hexUnit_closed hu more]
  show (if isTrailSurrogate u = true then _ else _) = _
  dsimp only at h
  split at h
  · cases h
  · rename_i ht
    rw [if_neg ht]
    split at h
    · rename_i hl
      rw [if_pos hl]
      obtain ⟨bs₂, hw, h⟩ := bind_eq_ok h
      obtain ⟨⟨v, bs₃⟩, hv, h⟩ := bind_eq_ok h
      rw [afterWord_append hw more]
      show (hexUnit (bs₂ ++ more) >>= _) = _
      rw [hexUnit_closed hv more]
      dsimp only at h
      split at h
      · rename_i ht'
        obtain ⟨hc, rfl⟩ := Prod.mk.inj (Except.ok.inj h)
        show (if isTrailSurrogate v = true then _ else _) = _
        rw [if_pos ht', hc]
      · cases h
    · rename_i hl
      rw [if_neg hl]
      obtain ⟨hc, rfl⟩ := Prod.mk.inj (Except.ok.inj h)
      rw [hc]

theorem escape_closed : Closed escape
  | [], _, _, h, _ => nomatch h
  | b :: bs, cs, rest, h, more => by
    rw [escape] at h
    rw [List.cons_append, escape]
    split at h
    · cases h
      rfl
    · split at h
      · rename_i hb
        rw [if_pos hb]
        obtain ⟨⟨c, bs₁⟩, hn, h⟩ := bind_eq_ok h
        rw [numberedChar_closed hn more]
        cases h
        rfl
      · cases h

theorem textBytes_append : ∀ {fuel fuel' acc bs cs rest : Bytes},
    textBytes fuel acc bs = .ok (cs, rest) → fuel.length ≤ fuel'.length → ∀ more,
      textBytes fuel' acc (bs ++ more) = .ok (cs, rest ++ more)
  | [], _, _, _, _, _, h, _, _ => nomatch h
  | _ :: _, _, _, [], _, _, h, _, _ => nomatch h
  | _ :: _, [], _, _ :: _, _, _, _, hf, _ => absurd hf (Nat.not_succ_le_zero _)
  | _ :: fuel, _ :: fuel', acc, b :: bs, cs, rest, h, hf, more => by
    have hf' : fuel.length ≤ fuel'.length := Nat.le_of_succ_le_succ hf
    rw [textBytes] at h
    rw [List.cons_append, textBytes]
    split at h
    · rename_i hq
      rw [if_pos hq]
      cases h
      rfl
    · rename_i hq
      rw [if_neg hq]
      split at h
      · rename_i hb
        rw [if_pos hb]
        split at h
        · cases h
        · rename_i es bs₁ he
          rw [escape_closed he more]
          exact textBytes_append h hf' more
      · rename_i hb
        rw [if_neg hb]
        split at h
        · cases h
        · rename_i hc
          rw [if_neg hc]
          exact textBytes_append h hf' more

/-- **A text ends with its quote.** -/
theorem textBody_closed : Closed textBody := by
  intro bs s rest h more
  unfold textBody at h
  obtain ⟨⟨cs, bs₁⟩, ht, h⟩ := bind_eq_ok h
  unfold textBody
  rw [textBytes_append ht (by simp) more, ok_bind]
  dsimp only at h ⊢
  split at h
  · cases h
    rfl
  · cases h

theorem skipBodyFrom_append : ∀ {fuel fuel' bs rest : Bytes},
    skipBodyFrom fuel bs = .ok rest → fuel.length ≤ fuel'.length → ∀ more,
      skipBodyFrom fuel' (bs ++ more) = .ok (rest ++ more)
  | [], _, _, _, h, _, _ => nomatch h
  | _ :: _, _, [], _, h, _, _ => nomatch h
  | _ :: _, [], _ :: _, _, _, hf, _ => absurd hf (Nat.not_succ_le_zero _)
  | _ :: fuel, _ :: fuel', b :: bs, rest, h, hf, more => by
    have hf' : fuel.length ≤ fuel'.length := Nat.le_of_succ_le_succ hf
    rw [skipBodyFrom.eq_def] at h
    rw [List.cons_append, skipBodyFrom.eq_def]
    dsimp only at h ⊢
    split at h
    · rename_i hq
      rw [if_pos hq]
      cases h
      rfl
    · rename_i hq
      rw [if_neg hq]
      split at h
      · rename_i hb
        rw [if_pos hb]
        split at h
        · cases h
        · rename_i c bs₁
          rw [List.cons_append]
          dsimp only
          split at h
          · rename_i he
            rw [if_pos he]
            exact skipBodyFrom_append h hf' more
          · rename_i he
            rw [if_neg he]
            split at h
            · rename_i hu
              rw [if_pos hu]
              split at h
              · cases h
              · rename_i u bs₂ hx
                rw [hexUnit_closed hx more]
                exact skipBodyFrom_append h hf' more
            · cases h
      · rename_i hb
        rw [if_neg hb]
        split at h
        · cases h
        · rename_i hc
          rw [if_neg hc]
          exact skipBodyFrom_append h hf' more

theorem skipBody_append (h : skipBody bs = .ok rest) (more : Bytes) :
    skipBody (bs ++ more) = .ok (rest ++ more) :=
  skipBodyFrom_append h (by simp) more

/-! ## 3. Numbers -/

theorem digitsFrom_append : ∀ {acc ds : List Nat} {bs rest : Bytes},
    digitsFrom acc bs = (ds, rest) → rest ≠ [] → ∀ more,
      digitsFrom acc (bs ++ more) = (ds, rest ++ more)
  | acc, _, [], _, h, hr, _ => by
    cases h
    exact absurd rfl hr
  | acc, ds, b :: bs, rest, h, hr, more => by
    rw [digitsFrom] at h
    rw [List.cons_append, digitsFrom]
    split at h
    · exact digitsFrom_append h hr more
    · cases h
      rfl

/-- A reader of digits finds some in front of what it leaves. -/
theorem someDigits_eq_ok {short : Fault} {ds : List Nat} :
    someDigits short bs = .ok (ds, rest) ↔ digits bs = (ds, rest) ∧ ds ≠ [] := by
  unfold someDigits
  rcases digits bs with ⟨_ | ⟨d, ds'⟩, rest'⟩
  · cases rest' <;> exact ⟨fun h => (nomatch h), fun ⟨h, hne⟩ => absurd (Prod.mk.inj h).1.symm hne⟩
  · refine ⟨fun h => ?_, fun h => congrArg _ h.1⟩
    cases h
    exact ⟨rfl, List.cons_ne_nil d ds'⟩

theorem someDigits_firm (short : Fault) : Firm (someDigits short) := by
  intro bs ds rest h hr more
  obtain ⟨hd, hne⟩ := someDigits_eq_ok.1 h
  exact someDigits_eq_ok.2 ⟨digitsFrom_append hd hr more, hne⟩

theorem wholePart_firm (short : Fault) : Firm (wholePart short) := by
  intro bs ds rest h hr more
  unfold wholePart at h
  obtain ⟨⟨ds', rest'⟩, hd, h⟩ := bind_eq_ok h
  dsimp only at h
  split at h
  · cases h
  · rename_i hz
    cases h
    unfold wholePart
    rw [someDigits_firm short hd hr more, ok_bind]
    dsimp only
    split
    · exact absurd rfl (hz _ _)
    · rfl

theorem exponentPart_firm (short : Fault) : Firm (exponentPart short)
  | [], e, rest, h, hr, _ => by
    cases h
    exact absurd rfl hr
  | b :: bs, e, rest, h, hr, more => by
    rw [exponentPart.eq_def] at h
    rw [List.cons_append, exponentPart.eq_def]
    dsimp only at h ⊢
    split at h
    · rename_i hb
      rw [if_pos hb]
      cases bs with
      | nil => cases h
      | cons c bs =>
        -- the sign is one byte or none, and the digits are read behind it in every case
        dsimp only [List.cons_append] at h ⊢
        split at h
        · obtain ⟨⟨ds, rest'⟩, hd, h⟩ := bind_eq_ok h
          cases h
          rename_i hc
          rw [if_pos hc]
          dsimp only
          rw [someDigits_firm short hd hr more]
          rfl
        · rename_i hc
          rw [if_neg hc]
          split at h
          · obtain ⟨⟨ds, rest'⟩, hd, h⟩ := bind_eq_ok h
            cases h
            rename_i hc'
            rw [if_pos hc']
            dsimp only
            rw [someDigits_firm short hd hr more]
            rfl
          · obtain ⟨⟨ds, rest'⟩, hd, h⟩ := bind_eq_ok h
            cases h
            rename_i hc'
            rw [if_neg hc']
            dsimp only
            rw [← List.cons_append, someDigits_firm short hd hr more]
            rfl
    · rename_i hb
      rw [if_neg hb]
      cases h
      rfl

theorem exponentPart_ne_nil {short : Fault} {e : Option (Bool × List Nat)}
    (h : exponentPart short bs = .ok (e, rest)) (hr : rest ≠ []) : bs ≠ [] := by
  rintro rfl
  cases h
  exact hr rfl

theorem numeral_firm (short : Fault) (negative : Bool) : Firm (numeral short negative) := by
  intro bs n rest h hr more
  unfold numeral at h
  obtain ⟨⟨whole, bs₁⟩, hw, h⟩ := bind_eq_ok h
  dsimp only at h
  unfold numeral
  split at h
  · rename_i bs₁'
    obtain ⟨⟨ds, bs₂⟩, hd, h⟩ := bind_eq_ok h
    obtain ⟨⟨exponent, bs₃⟩, he, h⟩ :=
      bind_eq_ok (show (exponentPart short bs₂ >>= _) = _ from h)
    cases h
    rw [wholePart_firm short hw (List.cons_ne_nil _ _) more]
    show (someDigits short (bs₁' ++ more) >>= _) = _
    rw [someDigits_firm short hd (exponentPart_ne_nil he hr) more]
    show (exponentPart short (bs₂ ++ more) >>= _) = _
    rw [exponentPart_firm short he hr more]
    rfl
  · rename_i hdot
    obtain ⟨⟨exponent, bs₃⟩, he, h⟩ :=
      bind_eq_ok (show (exponentPart short bs₁ >>= _) = _ from h)
    cases h
    have h₁ : bs₁ ≠ [] := exponentPart_ne_nil he hr
    rw [wholePart_firm short hw h₁ more, ok_bind]
    cases bs₁ with
    | nil => exact absurd rfl h₁
    | cons c bs₁ =>
      dsimp only [List.cons_append]
      split
      · rename_i heq
        exact absurd (List.cons.inj heq).1 fun hc => hdot bs₁ (by rw [hc])
      · show (exponentPart short (c :: bs₁ ++ more) >>= _) = _
        rw [exponentPart_firm short he hr more]
        rfl

theorem numberBody_firm (negative : Bool) : Firm (numberBody negative) := by
  intro bs v rest h hr more
  unfold numberBody at h
  obtain ⟨⟨n, bs₁⟩, hn, h⟩ := bind_eq_ok h
  dsimp only at h
  split at h
  · rename_i v' hv
    cases h
    unfold numberBody
    rw [numeral_firm .ended negative hn hr more, ok_bind]
    dsimp only
    rw [hv]
  · cases h

theorem skipNumber_append (h : skipNumber bs = .ok rest) (hr : rest ≠ []) (more : Bytes) :
    skipNumber (bs ++ more) = .ok (rest ++ more) := by
  unfold skipNumber at h
  obtain ⟨⟨n, bs₁⟩, hn, h⟩ := bind_eq_ok h
  cases h
  unfold skipNumber
  rw [numeral_firm .malformed false hn hr more]
  rfl

/-! ## 4. Values nobody asks for -/

section Skipping

variable {c : Container} {c? : Option Container} {stance stance' : Stance}
  {opened opened' : List Container}

theorem skipStart_append (h : skipStart bs = .ok (c?, rest)) (hr : rest ≠ []) (more : Bytes) :
    skipStart (bs ++ more) = .ok (c?, rest ++ more) := by
  rw [skipStart_eq] at h ⊢
  cases hd : dropBlanks bs with
  | nil =>
    rw [hd] at h
    cases h
  | cons b bs₁ =>
    rw [hd] at h
    rw [dropBlanks_append hd more]
    dsimp only at h ⊢
    generalize leadOf b = lead at h ⊢
    cases lead with
    | null =>
      obtain ⟨r, hw, h⟩ := map_eq_ok h
      cases h
      exact map_ok (afterWord_append hw more) _
    | true =>
      obtain ⟨r, hw, h⟩ := map_eq_ok h
      cases h
      exact map_ok (afterWord_append hw more) _
    | false =>
      obtain ⟨r, hw, h⟩ := map_eq_ok h
      cases h
      exact map_ok (afterWord_append hw more) _
    | minus =>
      obtain ⟨r, hn, h⟩ := map_eq_ok h
      cases h
      exact map_ok (skipNumber_append hn hr more) _
    | digit =>
      obtain ⟨r, hn, h⟩ := map_eq_ok h
      cases h
      exact map_ok (skipNumber_append hn hr more) _
    | quote =>
      obtain ⟨r, ht, h⟩ := map_eq_ok h
      cases h
      exact map_ok (skipBody_append ht more) _
    | list =>
      cases h
      rfl
    | object =>
      cases h
      rfl
    | other => cases h

theorem skipKey_append (h : skipKey bs = .ok rest) (more : Bytes) :
    skipKey (bs ++ more) = .ok (rest ++ more) := by
  unfold skipKey at h
  obtain ⟨bs₁, ht, h⟩ := bind_eq_ok h
  unfold skipKey
  rw [skipBody_append ht more]
  exact afterByte_append h more

theorem skipTo_append (h : skipTo c first bs = .ok next) (more : Bytes) :
    skipTo c first (bs ++ more) = .ok (next.map (· ++ more)) := by
  cases c with
  | list => exact nextItem_append h more
  | object =>
    unfold skipTo at h
    obtain ⟨key?, hk, h⟩ := bind_eq_ok h
    unfold skipTo
    dsimp only
    rw [nextKey_append hk more]
    cases key? with
    | none =>
      cases h
      rfl
    | some bs₁ =>
      obtain ⟨bs₂, hs, h⟩ := map_eq_ok h
      cases h
      show some <$> skipKey (bs₁ ++ more) = _
      rw [skipKey_append hs more]
      rfl

/-- Where no item follows, the bracket does. -/
theorem dropBlanks_of_skipTo_none (h : skipTo c first bs = .ok none) :
    ∃ b bs', dropBlanks bs = b :: bs' := by
  cases c with
  | list =>
    cases nextItem_eq_ok.1 h with
    | closed _ bs' hd => exact ⟨_, bs', hd⟩
  | object =>
    unfold skipTo at h
    obtain ⟨key?, hk, h⟩ := bind_eq_ok h
    cases key? with
    | none =>
      cases nextKey_eq_ok.1 hk with
      | closed _ bs' hd => exact ⟨_, bs', hd⟩
    | some bs₁ =>
      obtain ⟨bs₂, -, h⟩ := map_eq_ok h
      cases h

theorem skipOn_append (h : skipOn c opened first bs = .ok (stance', opened', rest)) (more : Bytes) :
    skipOn c opened first (bs ++ more) = .ok (stance', opened', rest ++ more) := by
  unfold skipOn at h
  unfold skipOn
  split at h
  · cases h
  · rename_i bs₁ hs
    cases h
    rw [skipTo_append hs more]
    rfl
  · rename_i hs
    cases h
    obtain ⟨b, bs', hd⟩ := dropBlanks_of_skipTo_none hs
    rw [skipTo_append hs more, dropBlanks_append hd more, hd]
    rfl

/-- No step is made inside a container where nothing is left. -/
theorem skipOn_nil (c : Container) (opened : List Container) (first : Bool) :
    ∃ e, skipOn c opened first [] = .error e := by
  cases c <;> exact ⟨.ended, rfl⟩

theorem skipStep_append (h : skipStep stance opened bs = .ok (stance', opened', rest))
    (hr : rest ≠ []) (more : Bytes) :
    skipStep stance opened (bs ++ more) = .ok (stance', opened', rest ++ more) := by
  cases stance with
  | before =>
    unfold skipStep at h
    unfold skipStep
    dsimp only at h ⊢
    split at h
    · cases h
    · rename_i bs₁ hs
      cases h
      rw [skipStart_append hs hr more]
    · rename_i c bs₁ hs
      have hne : bs₁ ≠ [] := by
        rintro rfl
        obtain ⟨e, he⟩ := skipOn_nil c opened true
        rw [he] at h
        cases h
      rw [skipStart_append hs hne more]
      exact skipOn_append h more
  | behind =>
    cases opened with
    | nil =>
      cases h
      rfl
    | cons c opened => exact skipOn_append h more

theorem skipFrom_done (fuel bs : Bytes) : skipFrom fuel .behind [] bs = .ok bs := by
  rw [skipFrom.eq_def]

/-- Skipping that is not done takes a step. -/
theorem skipFrom_cons {f : UInt8} {fuel : Bytes} (h : stance = .behind → opened ≠ []) :
    skipFrom (f :: fuel) stance opened bs =
      match skipStep stance opened bs with
      | .error e => .error e
      | .ok (stance, opened, bs) => skipFrom fuel stance opened bs := by
  cases stance with
  | before => rfl
  | behind =>
    cases opened with
    | nil => exact absurd rfl (h rfl)
    | cons c opened => rfl

/-- Skipping that is not done has something in front of it. -/
theorem skipFrom_nil {fuel : Bytes} (h : skipFrom fuel stance opened [] = .ok rest) :
    rest = [] := by
  by_cases hdone : stance = .behind ∧ opened = []
  · obtain ⟨rfl, rfl⟩ := hdone
    rw [skipFrom_done] at h
    cases h
    rfl
  · cases fuel with
    | nil => cases stance <;> cases opened <;> simp_all [skipFrom]
    | cons f fuel =>
      rw [skipFrom_cons fun hs ho => hdone ⟨hs, ho⟩] at h
      cases stance with
      | before => cases h
      | behind =>
        cases opened with
        | nil => exact absurd ⟨rfl, rfl⟩ hdone
        | cons c opened =>
          obtain ⟨e, he⟩ := skipOn_nil c opened false
          rw [skipStep, he] at h
          cases h

theorem skipFrom_append : ∀ {fuel fuel' : Bytes} {stance : Stance} {opened : List Container}
    {bs rest : Bytes}, skipFrom fuel stance opened bs = .ok rest → rest ≠ [] →
      fuel.length ≤ fuel'.length → ∀ more,
        skipFrom fuel' stance opened (bs ++ more) = .ok (rest ++ more) := by
  intro fuel
  induction fuel with
  | nil =>
    intro fuel' stance opened bs rest h _ _ more
    cases stance with
    | before => cases h
    | behind =>
      cases opened with
      | nil =>
        rw [skipFrom_done] at h ⊢
        cases h
        rfl
      | cons c opened => cases h
  | cons f fuel ih =>
    intro fuel' stance opened bs rest h hr hf more
    by_cases hdone : stance = .behind ∧ opened = []
    · obtain ⟨rfl, rfl⟩ := hdone
      rw [skipFrom_done] at h ⊢
      cases h
      rfl
    · cases fuel' with
      | nil => exact absurd hf (Nat.not_succ_le_zero _)
      | cons f' fuel' =>
        rw [skipFrom_cons fun hs ho => hdone ⟨hs, ho⟩] at h ⊢
        split at h
        · cases h
        · rename_i stance' opened' bs' hs
          have hne : bs' ≠ [] := by
            rintro rfl
            exact hr (skipFrom_nil h)
          rw [skipStep_append hs hne more]
          exact ih h hr (Nat.le_of_succ_le_succ hf) more

/-- **What is skipped does not depend on what stands behind the byte after it.** -/
theorem skip_append (h : skip bs = .ok rest) (hr : rest ≠ []) (more : Bytes) :
    skip (bs ++ more) = .ok (rest ++ more) :=
  skipFrom_append h hr (by simp) more

end Skipping

end RevisionWatch.Json
