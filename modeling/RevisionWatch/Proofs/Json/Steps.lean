import RevisionWatch.Json.Document
/-!
# The steps that all readers share

What a step of a reader comes to when it succeeds, stated once so that no proof about a reader has
to open the step again: blanks are passed over (`dropBlanks_append`), words and single bytes are
met (`afterWord_eq_ok`, `afterByte_eq_ok`), in a container there is a next item or the bracket
(`ItemStep`, `KeyStep`), and the first byte of a value says of which kind it is (`Lead`).
-/

namespace RevisionWatch

/-- A computation that goes on from another succeeds with it. -/
theorem bind_eq_ok {ε α β : Type} {x : Except ε α} {f : α → Except ε β} {b : β}
    (h : (x >>= f) = .ok b) : ∃ a, x = .ok a ∧ f a = .ok b := by
  cases x with
  | error e => cases h
  | ok a => exact ⟨a, rfl, h⟩

/-- What goes on from a success goes on from what it gave. -/
theorem ok_bind {ε α β : Type} (a : α) (f : α → Except ε β) : (Except.ok a >>= f) = f a :=
  rfl

theorem map_eq_ok {ε α β : Type} {x : Except ε α} {f : α → β} {b : β}
    (h : f <$> x = .ok b) : ∃ a, x = .ok a ∧ f a = b := by
  cases x with
  | error e => cases h
  | ok a => exact ⟨a, rfl, Except.ok.inj h⟩

theorem map_ok {ε α β : Type} {x : Except ε α} {a : α} (h : x = .ok a) (f : α → β) :
    f <$> x = .ok (f a) := by
  rw [h]
  rfl

/-- Another error is still one. -/
theorem mapError_eq_ok {ε ε' α : Type} {x : Except ε α} {f : ε → ε'} {a : α} :
    x.mapError f = .ok a ↔ x = .ok a := by
  cases x with
  | error e => exact ⟨(fun h => nomatch h), (fun h => nomatch h)⟩
  | ok b => exact ⟨fun h => congrArg _ (Except.ok.inj h), fun h => congrArg _ (Except.ok.inj h)⟩

/-- What an option says of a success, in a form that can be evaluated. -/
theorem ok_of_toOption {ε α : Type} {x : Except ε α} {a : α} (h : x.toOption = some a) :
    x = .ok a := by
  cases x with
  | error e => cases h
  | ok b => exact congrArg _ (Option.some.inj h)

namespace Json

variable {bs rest : Bytes} {b : UInt8} {first : Bool} {next : Option Bytes}

/-! ## 1. Blanks and words -/

theorem dropBlanks_cons_of_blank (h : isBlank b = true) (bs : Bytes) :
    dropBlanks (b :: bs) = dropBlanks bs := by
  rw [dropBlanks, if_pos h]

theorem dropBlanks_cons_of_not_blank (h : isBlank b = false) (bs : Bytes) :
    dropBlanks (b :: bs) = b :: bs := by
  rw [dropBlanks, h]
  rfl

theorem dropBlanks_append (h : dropBlanks bs = b :: rest) (more : Bytes) :
    dropBlanks (bs ++ more) = b :: (rest ++ more) := by
  induction bs with
  | nil => cases h
  | cons c bs ih =>
    rw [List.cons_append]
    cases hc : isBlank c with
    | true =>
      rw [dropBlanks_cons_of_blank hc] at h ⊢
      exact ih h
    | false =>
      rw [dropBlanks_cons_of_not_blank hc] at h ⊢
      cases h
      rfl

theorem afterWord_eq_ok : ∀ {ws bs rest : Bytes}, afterWord ws bs = .ok rest ↔ bs = ws ++ rest
  | [], bs, rest => by
    rw [afterWord]
    exact ⟨fun h => Except.ok.inj h, fun h => congrArg _ h⟩
  | w :: ws, [], rest => by
    rw [afterWord]
    exact ⟨fun h => (nomatch h), fun h => (nomatch h)⟩
  | w :: ws, b :: bs, rest => by
    rw [afterWord]
    by_cases hw : w = b
    · rw [if_pos (beq_iff_eq.2 hw), afterWord_eq_ok, hw, List.cons_append, List.cons.injEq]
      exact ⟨fun h => ⟨rfl, h⟩, And.right⟩
    · rw [if_neg (mt beq_iff_eq.1 hw), List.cons_append, List.cons.injEq]
      exact ⟨fun h => (nomatch h), fun h => absurd h.1.symm hw⟩

theorem afterByte_eq_ok {wanted : UInt8} :
    afterByte wanted bs = .ok rest ↔ dropBlanks bs = wanted :: rest := by
  unfold afterByte
  cases dropBlanks bs with
  | nil => exact ⟨fun h => (nomatch h), fun h => (nomatch h)⟩
  | cons b bs' =>
    dsimp only
    by_cases hb : b = wanted
    · rw [if_pos (beq_iff_eq.2 hb), hb, List.cons.injEq]
      exact ⟨fun h => ⟨rfl, Except.ok.inj h⟩, fun h => congrArg _ h.2⟩
    · rw [if_neg (mt beq_iff_eq.1 hb), List.cons.injEq]
      exact ⟨fun h => (nomatch h), fun h => absurd h.1 hb⟩

/-! ## 2. Containers -/

/-- The step to the next item of a list. -/
inductive ItemStep (bs : Bytes) : Bool → Option Bytes → Prop where
  | closed (first : Bool) (rest : Bytes) (h : dropBlanks bs = closeList :: rest) :
      ItemStep bs first none
  | opening (b : UInt8) (rest : Bytes) (h : dropBlanks bs = b :: rest) (hb : b ≠ closeList) :
      ItemStep bs true (some (b :: rest))
  | parted (rest : Bytes) (c : UInt8) (rest' : Bytes) (h : dropBlanks bs = comma :: rest)
      (h' : dropBlanks rest = c :: rest') (hc : c ≠ closeList) :
      ItemStep bs false (some (c :: rest'))

/-- The step to the next key of an object, behind its quote. -/
inductive KeyStep (bs : Bytes) : Bool → Option Bytes → Prop where
  | closed (first : Bool) (rest : Bytes) (h : dropBlanks bs = closeObject :: rest) :
      KeyStep bs first none
  | opening (rest : Bytes) (h : dropBlanks bs = quote :: rest) : KeyStep bs true (some rest)
  | parted (rest rest' : Bytes) (h : dropBlanks bs = comma :: rest)
      (h' : dropBlanks rest = quote :: rest') : KeyStep bs false (some rest')

theorem nextItem_eq_ok : nextItem first bs = .ok next ↔ ItemStep bs first next := by
  constructor
  · intro h
    unfold nextItem at h
    split at h
    · cases h
    · rename_i b rest hd
      split at h
      · rename_i hb
        rw [beq_iff_eq.1 hb] at hd
        cases h
        exact .closed first rest hd
      · rename_i hb
        split at h
        · rename_i hf
          subst hf
          cases h
          exact .opening b rest hd (mt beq_iff_eq.2 hb)
        · rename_i hf
          rw [Bool.eq_false_iff.2 hf]
          split at h
          · rename_i hc
            rw [beq_iff_eq.1 hc] at hd
            split at h
            · cases h
            · rename_i c rest' hd'
              split at h
              · cases h
              · rename_i hc'
                cases h
                exact .parted rest c rest' hd hd' (mt beq_iff_eq.2 hc')
          · cases h
  · rintro (⟨_, rest, h⟩ | ⟨b, rest, h, hb⟩ | ⟨rest, c, rest', h, h', hc⟩)
    · unfold nextItem
      rw [h]
      rfl
    · unfold nextItem
      rw [h]
      dsimp only
      rw [if_neg (mt beq_iff_eq.1 hb), if_pos rfl]
    · unfold nextItem
      rw [h]
      dsimp only
      rw [h', if_neg (by decide), if_neg (by decide), if_pos (by decide)]
      dsimp only
      rw [if_neg (mt beq_iff_eq.1 hc)]

theorem nextKey_eq_ok : nextKey first bs = .ok next ↔ KeyStep bs first next := by
  constructor
  · intro h
    unfold nextKey at h
    split at h
    · cases h
    · rename_i b rest hd
      split at h
      · rename_i hb
        rw [beq_iff_eq.1 hb] at hd
        cases h
        exact .closed first rest hd
      · split at h
        · rename_i hf
          subst hf
          split at h
          · rename_i hq
            rw [beq_iff_eq.1 hq] at hd
            cases h
            exact .opening rest hd
          · cases h
        · rename_i hf
          rw [Bool.eq_false_iff.2 hf]
          split at h
          · rename_i hc
            rw [beq_iff_eq.1 hc] at hd
            split at h
            · cases h
            · rename_i c rest' hd'
              split at h
              · rename_i hq
                rw [beq_iff_eq.1 hq] at hd'
                cases h
                exact .parted rest rest' hd hd'
              · cases h
          · cases h
  · rintro (⟨_, rest, h⟩ | ⟨rest, h⟩ | ⟨rest, rest', h, h'⟩)
    · unfold nextKey
      rw [h]
      rfl
    · unfold nextKey
      rw [h]
      rfl
    · unfold nextKey
      rw [h]
      dsimp only
      rw [h', if_neg (by decide), if_neg (by decide), if_pos (by decide)]
      rfl

/-- There is one next step in a list. -/
theorem ItemStep.unique {next' : Option Bytes} (h : ItemStep bs first next)
    (h' : ItemStep bs first next') : next = next' :=
  Except.ok.inj ((nextItem_eq_ok.2 h).symm.trans (nextItem_eq_ok.2 h'))

/-- There is one next step in an object. -/
theorem KeyStep.unique {next' : Option Bytes} (h : KeyStep bs first next)
    (h' : KeyStep bs first next') : next = next' :=
  Except.ok.inj ((nextKey_eq_ok.2 h).symm.trans (nextKey_eq_ok.2 h'))

/-! ## 3. First bytes -/

/-- What the first byte of a value says of it. -/
inductive Lead where
  | null
  | true
  | false
  | minus
  | digit
  | quote
  | list
  | object
  | other
deriving DecidableEq, Repr

/-- The lead that a byte gives. -/
def leadOf (b : UInt8) : Lead :=
  if b == 0x6E then .null
  else if b == 0x74 then .true
  else if b == 0x66 then .false
  else if b == 0x2D then .minus
  else if (digit? b).isSome then .digit
  else if b == quote then .quote
  else if b == openList then .list
  else if b == openObject then .object
  else .other

theorem scalar?_eq (b : UInt8) (rest : Bytes) :
    scalar? b rest =
      match leadOf b with
      | .null => some ((Value.null, ·) <$> afterNull rest)
      | .true => some ((Value.boolean Bool.true, ·) <$> afterTrue rest)
      | .false => some ((Value.boolean Bool.false, ·) <$> afterFalse rest)
      | .minus => some (numberBody Bool.true rest)
      | .digit => some (numberBody Bool.false (b :: rest))
      | .quote => some (do
        let (s, rest) ← textBody rest
        .ok (.text s, rest))
      | _ => none := by
  unfold scalar? leadOf
  iterate 6
    split
    · rfl
  by_cases hl : b == openList
  · rw [if_pos hl]
  · rw [if_neg hl]
    by_cases ho : b == openObject
    · rw [if_pos ho]
    · rw [if_neg ho]

theorem skipStart_eq (bs : Bytes) :
    skipStart bs =
      match dropBlanks bs with
      | [] => .error .ended
      | b :: rest =>
        match leadOf b with
        | .null => (none, ·) <$> afterNull rest
        | .true => (none, ·) <$> afterTrue rest
        | .false => (none, ·) <$> afterFalse rest
        | .minus => (none, ·) <$> skipNumber rest
        | .digit => (none, ·) <$> skipNumber (b :: rest)
        | .quote => (none, ·) <$> skipBody rest
        | .list => .ok (some .list, rest)
        | .object => .ok (some .object, rest)
        | .other => .error .malformed := by
  unfold skipStart leadOf
  cases dropBlanks bs with
  | nil => rfl
  | cons b rest =>
    dsimp only
    iterate 8
      split
      · rfl
    rfl

end Json

end RevisionWatch
