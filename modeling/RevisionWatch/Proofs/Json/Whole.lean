import RevisionWatch.Json.Fields
import RevisionWatch.Proofs.Json.Ahead
/-!
# Whole texts and their beginnings

A container is read to its bracket, so it is closed as soon as the readers of what stands in it are
firm. A whole text that is a container can therefore not be mistaken for another by cutting it off:
its beginnings are errors, until nothing but blanks is missing.

* `items_closed`, `members_closed`, `content_firm` — values of any kind;
* `Layout.read_closed` — things with named fields;
* `document_append` — whole texts.
-/

namespace RevisionWatch.Json

variable {α δ : Type} {bs rest : Bytes}

/-! ## 1. Values of any kind -/

theorem itemsFrom_append {read : Reader α} (hread : Firm read) :
    ∀ {fuel fuel' : Bytes} {first : Bool} {acc as : List α} {bs rest : Bytes},
      itemsFrom read fuel first acc bs = .ok (as, rest) → fuel.length ≤ fuel'.length → ∀ more,
        itemsFrom read fuel' first acc (bs ++ more) = .ok (as, rest ++ more)
  | [], _, _, _, _, _, _, h, _, _ => nomatch h
  | _ :: _, [], _, _, _, _, _, _, hf, _ => absurd hf (Nat.not_succ_le_zero _)
  | _ :: fuel, _ :: fuel', first, acc, as, bs, rest, h, hf, more => by
    rw [itemsFrom] at h
    obtain ⟨next, hn, h⟩ := bind_eq_ok h
    rw [itemsFrom, nextItem_append hn more]
    cases next with
    | none =>
      obtain ⟨rest', hc, h⟩ := bind_eq_ok h
      cases h
      show (afterByte closeList (bs ++ more) >>= _) = _
      rw [afterByte_append hc more]
      rfl
    | some bs₁ =>
      obtain ⟨⟨a, bs₂⟩, ha, h⟩ := bind_eq_ok h
      have hne : bs₂ ≠ [] := by
        rintro rfl
        cases fuel <;> cases h
      show (read (bs₁ ++ more) >>= _) = _
      rw [hread ha hne more]
      exact itemsFrom_append hread h (Nat.le_of_succ_le_succ hf) more

/-- **A list ends with its bracket.** -/
theorem items_closed {read : Reader α} (hread : Firm read) : Closed (items read) :=
  fun _ _ _ h more => itemsFrom_append hread h (by simp) more

theorem membersFrom_append {read : Reader α} (hread : Firm read) :
    ∀ {fuel fuel' : Bytes} {first : Bool} {acc ms : List (String × α)} {bs rest : Bytes},
      membersFrom read fuel first acc bs = .ok (ms, rest) → fuel.length ≤ fuel'.length → ∀ more,
        membersFrom read fuel' first acc (bs ++ more) = .ok (ms, rest ++ more)
  | [], _, _, _, _, _, _, h, _, _ => nomatch h
  | _ :: _, [], _, _, _, _, _, _, hf, _ => absurd hf (Nat.not_succ_le_zero _)
  | _ :: fuel, _ :: fuel', first, acc, ms, bs, rest, h, hf, more => by
    rw [membersFrom] at h
    obtain ⟨next, hn, h⟩ := bind_eq_ok h
    rw [membersFrom, nextKey_append hn more]
    cases next with
    | none =>
      obtain ⟨rest', hc, h⟩ := bind_eq_ok h
      cases h
      show (afterByte closeObject (bs ++ more) >>= _) = _
      rw [afterByte_append hc more]
      rfl
    | some bs₁ =>
      obtain ⟨⟨key, bs₂⟩, hk, h⟩ := bind_eq_ok h
      obtain ⟨bs₃, hc, h⟩ := bind_eq_ok h
      obtain ⟨⟨a, bs₄⟩, ha, h⟩ := bind_eq_ok h
      have hne : bs₄ ≠ [] := by
        rintro rfl
        cases fuel <;> cases h
      show (textBody (bs₁ ++ more) >>= _) = _
      rw [textBody_closed hk more]
      show (afterByte colon (bs₂ ++ more) >>= _) = _
      rw [afterByte_append hc more]
      show (read (bs₃ ++ more) >>= _) = _
      rw [hread ha hne more]
      exact membersFrom_append hread h (Nat.le_of_succ_le_succ hf) more

/-- **An object ends with its brace.** -/
theorem members_closed {read : Reader α} (hread : Firm read) : Closed (members read) :=
  fun _ _ _ h more => membersFrom_append hread h (by simp) more

/-- A scalar that a first byte starts is read alike in front of more. -/
theorem scalar?_append {b : UInt8} {v : Value} (h : scalar? b bs = some (.ok (v, rest)))
    (hr : rest ≠ []) (more : Bytes) :
    scalar? b (bs ++ more) = some (.ok (v, rest ++ more)) := by
  rw [scalar?_eq] at h ⊢
  generalize leadOf b = lead at h ⊢
  cases lead with
  | null =>
    obtain ⟨r, hw, h⟩ := map_eq_ok (Option.some.inj h)
    cases h
    exact congrArg some (map_ok (afterWord_append hw more) _)
  | true =>
    obtain ⟨r, hw, h⟩ := map_eq_ok (Option.some.inj h)
    cases h
    exact congrArg some (map_ok (afterWord_append hw more) _)
  | false =>
    obtain ⟨r, hw, h⟩ := map_eq_ok (Option.some.inj h)
    cases h
    exact congrArg some (map_ok (afterWord_append hw more) _)
  | minus => exact congrArg some (numberBody_firm true (Option.some.inj h) hr more)
  | digit => exact congrArg some (numberBody_firm false (Option.some.inj h) hr more)
  | quote =>
    obtain ⟨⟨s, r⟩, ht, h⟩ := bind_eq_ok (Option.some.inj h)
    cases h
    show some (textBody (bs ++ more) >>= _) = _
    rw [textBody_closed ht more]
    rfl
  | list => cases h
  | object => cases h
  | other => cases h

/-- Whether a first byte starts a scalar is a matter of that byte. -/
theorem scalar?_none {b : UInt8} (h : scalar? b bs = none) (bs' : Bytes) :
    scalar? b bs' = none := by
  rw [scalar?_eq] at h ⊢
  cases hl : leadOf b <;> rw [hl] at h <;> first | rfl | cases h

/-- What is read in a room is firm, if it is in the next smaller one. -/
theorem content_firm_of {room : Nat} (ih : ∀ room', room = room' + 1 → Firm (content room')) :
    Firm (content room) := by
  intro bs c rest h hr more
  unfold content at h ⊢
  split at h
  · cases h
  · rename_i b bs₁ hd
    rw [dropBlanks_append hd more]
    dsimp only at h ⊢
    split at h
    · rename_i r hs
      obtain ⟨⟨v, bs₂⟩, rfl, h⟩ := bind_eq_ok h
      cases h
      rw [scalar?_append hs hr more]
      rfl
    · rename_i hs
      rw [scalar?_none hs]
      cases room with
      | zero => cases h
      | succ room =>
        dsimp only at h ⊢
        split at h
        · rename_i hb
          obtain ⟨⟨cs, bs₂⟩, hi, h⟩ := bind_eq_ok h
          cases h
          rw [if_pos hb, items_closed (ih room rfl) hi more]
          rfl
        · rename_i hb
          rw [if_neg hb]
          split at h
          · rename_i hb
            obtain ⟨⟨ms, bs₂⟩, hm, h⟩ := bind_eq_ok h
            cases h
            rw [if_pos hb, members_closed (ih room rfl) hm more]
            rfl
          · cases h

theorem content_firm (room : Nat) : Firm (content room) := by
  induction room with
  | zero => exact content_firm_of fun _ h => nomatch h
  | succ room ih =>
    refine content_firm_of fun room' h => ?_
    cases h
    exact ih

theorem value_firm (room : Nat) : Firm (value room) := by
  intro bs v rest h hr more
  unfold value at h
  obtain ⟨⟨c, bs₁⟩, hc, h⟩ := bind_eq_ok h
  cases h
  unfold value
  rw [content_firm room hc hr more]
  rfl

/-! ## 2. Values of a known kind -/

theorem textAs_closed (wanted : String) : Closed (textAs wanted) := by
  intro bs s rest h more
  unfold textAs at h ⊢
  split at h
  · cases h
  · rename_i b bs₁ hd
    rw [dropBlanks_append hd more]
    dsimp only
    split at h
    · rename_i hq
      rw [if_pos hq]
      exact textBody_closed h more
    · cases h

theorem boolean_closed : Closed boolean := by
  intro bs t rest h more
  unfold boolean at h ⊢
  split at h
  · cases h
  · rename_i b bs₁ hd
    rw [dropBlanks_append hd more]
    dsimp only
    split at h
    · rename_i hb
      obtain ⟨r, hw, h⟩ := map_eq_ok h
      cases h
      rw [if_pos hb]
      exact map_ok (afterWord_append hw more) _
    · rename_i hb
      rw [if_neg hb]
      split at h
      · rename_i hb
        obtain ⟨r, hw, h⟩ := map_eq_ok h
        cases h
        rw [if_pos hb]
        exact map_ok (afterWord_append hw more) _
      · cases h

theorem natural_firm (limit : Nat) (wanted : String) : Firm (natural limit wanted) := by
  intro bs n rest h hr more
  unfold natural at h ⊢
  split at h
  · cases h
  · rename_i b bs₁ hd
    rw [dropBlanks_append hd more]
    dsimp only
    split at h
    · rename_i v bs₂ hs
      split at h
      · rename_i n' hn
        cases h
        rw [scalar?_append hs hr more]
        dsimp only
        rw [hn]
      · cases h
    · cases h

theorem optional_firm {read : Reader α} (hread : Firm read) : Firm (optional read) := by
  intro bs a rest h hr more
  unfold optional at h ⊢
  split at h
  · rename_i b bs₁ hd
    rw [dropBlanks_append hd more]
    dsimp only
    split at h
    · rename_i hb
      obtain ⟨r, hw, h⟩ := map_eq_ok h
      cases h
      rw [if_pos hb]
      exact map_ok (afterWord_append hw more) _
    · rename_i hb
      obtain ⟨⟨a', bs₂⟩, ha, h⟩ := bind_eq_ok h
      cases h
      rw [if_neg hb, hread ha hr more]
      rfl
  · cases h

theorem listOf_closed {read : Nested α} (hread : ∀ room, Firm (read room)) (room : Nat) :
    Closed (listOf read room) := by
  intro bs as rest h more
  unfold listOf at h ⊢
  split at h
  · cases h
  · rename_i b bs₁ hd
    rw [dropBlanks_append hd more]
    dsimp only
    split at h
    · rename_i hb
      rw [if_pos hb]
      cases room with
      | zero => cases h
      | succ room => exact items_closed (hread room) h more
    · cases h

/-! ## 3. Things with named fields -/

/-- The readers of all fields are firm. -/
def Layout.FirmFields (l : Layout δ α) : Prop :=
  ∀ f ∈ l.fields, ∀ room d, Firm (f.read room d)

theorem Field.of_firm {key : String} {get : δ → Option α} {put : δ → α → δ} {read : Nested α}
    (hread : ∀ room, Firm (read room)) (room : Nat) (d : δ) :
    Firm ((Field.of key get put read).read room d) := by
  intro bs d' rest h hr more
  obtain ⟨⟨a, bs₁⟩, ha, h⟩ := bind_eq_ok h
  cases h
  show (read room (bs ++ more) >>= _) = _
  rw [hread room ha hr more]
  rfl

namespace Layout

variable {l : Layout δ α}

theorem membersFrom_append (hl : l.FirmFields) (room : Nat) :
    ∀ {fuel fuel' : Bytes} {first : Bool} {d d' : δ} {bs rest : Bytes},
      l.membersFrom room fuel first d bs = .ok (d', rest) → fuel.length ≤ fuel'.length → ∀ more,
        l.membersFrom room fuel' first d (bs ++ more) = .ok (d', rest ++ more)
  | [], _, _, _, _, _, _, h, _, _ => nomatch h
  | _ :: _, [], _, _, _, _, _, _, hf, _ => absurd hf (Nat.not_succ_le_zero _)
  | _ :: fuel, _ :: fuel', first, d, d', bs, rest, h, hf, more => by
    have hf' : fuel.length ≤ fuel'.length := Nat.le_of_succ_le_succ hf
    rw [membersFrom] at h
    obtain ⟨next, hn, h⟩ := bind_eq_ok h
    rw [membersFrom, nextKey_append hn more]
    cases next with
    | none =>
      cases h
      rfl
    | some bs₁ =>
      obtain ⟨⟨key, bs₂⟩, hk, h⟩ := bind_eq_ok h
      show (textBody (bs₁ ++ more) >>= _) = _
      rw [textBody_closed hk more, ok_bind]
      dsimp only at h ⊢
      have hne : ∀ {d bs}, l.membersFrom room fuel false d bs = .ok (d', rest) → bs ≠ [] := by
        rintro d _ hrest rfl
        cases fuel <;> cases hrest
      split at h
      · rename_i f hfind
        split at h
        · cases h
        · rename_i hgiven
          obtain ⟨bs₃, hc, h⟩ := bind_eq_ok h
          obtain ⟨⟨d₁, bs₄⟩, hd, h⟩ := bind_eq_ok h
          have hfirm := hl f (List.mem_of_find?_eq_some hfind) room d
          rw [if_neg hgiven, afterByte_append hc more]
          show (f.read room d (bs₃ ++ more) >>= _) = _
          rw [hfirm hd (hne h) more]
          exact membersFrom_append hl room h hf' more
      · obtain ⟨bs₃, hc, h⟩ := bind_eq_ok h
        obtain ⟨bs₄, hs, h⟩ := bind_eq_ok h
        rw [afterByte_append hc more]
        show (skip (bs₃ ++ more) >>= _) = _
        rw [skip_append hs (hne h) more]
        exact membersFrom_append hl room h hf' more

theorem object_closed (hl : l.FirmFields) (room : Nat) : Closed (l.object room) := by
  intro bs a rest h more
  unfold object at h
  obtain ⟨⟨d, bs₁⟩, hm, h⟩ := bind_eq_ok h
  unfold object
  rw [membersFrom_append hl room hm (by simp) more, ok_bind]
  dsimp only at h ⊢
  split at h
  · cases h
  · obtain ⟨rest', hc, h⟩ := bind_eq_ok h
    cases h
    rw [afterByte_append hc more]
    rfl

theorem itemsFrom_append {room : Nat} : ∀ {fs : List (Field δ)} {first : Bool} {d d' : δ}
    {bs rest : Bytes}, (∀ f ∈ fs, ∀ d, Firm (f.read room d)) →
      itemsFrom room fs first d bs = .ok (d', rest) → rest ≠ [] → ∀ more,
        itemsFrom room fs first d (bs ++ more) = .ok (d', rest ++ more)
  | [], _, _, _, _, _, _, h, _, _ => by cases h; rfl
  | f :: fs, first, d, d', bs, rest, hfs, h, hr, more => by
    rw [itemsFrom] at h
    obtain ⟨next, hn, h⟩ := bind_eq_ok h
    rw [itemsFrom, nextItem_append hn more]
    cases next with
    | none =>
      cases h
      rfl
    | some bs₁ =>
      obtain ⟨⟨d₁, bs₂⟩, hd, h⟩ := bind_eq_ok h
      have hne : bs₂ ≠ [] := by
        rintro rfl
        cases fs with
        | nil =>
          cases h
          exact hr rfl
        | cons f' fs => cases h
      show (f.read room d (bs₁ ++ more) >>= _) = _
      rw [hfs f List.mem_cons_self d hd hne more]
      exact itemsFrom_append (fun f hf => hfs f (List.mem_cons_of_mem _ hf)) h hr more

theorem list_closed (hl : l.FirmFields) (room : Nat) : Closed (l.list room) := by
  intro bs a rest h more
  unfold list at h
  obtain ⟨⟨d, bs₁⟩, hi, h⟩ := bind_eq_ok h
  dsimp only at h
  split at h
  · cases h
  · rename_i a' hf
    obtain ⟨rest', hc, h⟩ := bind_eq_ok h
    cases h
    have hne : bs₁ ≠ [] := by
      rintro rfl
      cases hc
    unfold list
    rw [itemsFrom_append (fun f hf => hl f hf room) hi hne more, ok_bind]
    dsimp only
    rw [hf]
    dsimp only
    rw [afterByte_append hc more]
    rfl

/-- **A thing with named fields ends with its bracket**, in either form. -/
theorem read_closed (hl : l.FirmFields) (room : Nat) : Closed (l.read room) := by
  intro bs a rest h more
  unfold read at h ⊢
  split at h
  · cases h
  · rename_i b bs₁ hd
    rw [dropBlanks_append hd more]
    dsimp only
    cases room with
    | zero =>
      split at h
      · cases h
      · split at h <;> cases h
    | succ room =>
      dsimp only at h ⊢
      split at h
      · rename_i hb
        rw [if_pos hb]
        exact object_closed hl room h more
      · rename_i hb
        rw [if_neg hb]
        split at h
        · rename_i hb
          rw [if_pos hb]
          exact list_closed hl room h more
        · cases h

end Layout

/-! ## 4. Whole texts -/

/-- **A text that goes on is read alike or not at all.** -/
theorem document_append {read : Nested α} (hread : Closed (read depthLimit)) {a a' : α}
    {more : Bytes} (h : document read bs = .ok a) (h' : document read (bs ++ more) = .ok a') :
    a' = a := by
  unfold document at h h'
  obtain ⟨⟨x, rest⟩, hx, h⟩ := bind_eq_ok h
  obtain ⟨⟨x', rest'⟩, hx', h'⟩ := bind_eq_ok h'
  rw [hread hx more] at hx'
  cases hx'
  dsimp only at h h'
  split at h
  · split at h'
    · cases h
      cases h'
      rfl
    · cases h'
  · cases h

end RevisionWatch.Json
