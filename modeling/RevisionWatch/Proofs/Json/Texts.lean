import RevisionWatch.Proofs.Json.Ahead
/-!
# Texts between their quotes

`TextBody` is the grammar of what stands between two quotes: bytes that stand for themselves,
escapes of one letter, and escapes by number. A text that nobody asks for is found by this grammar
alone (`skipBody_eq_ok`); one that is read obeys it too, and means the same whatever stands behind
it (`textBody_sound`), so its meaning is a matter of the bytes between the quotes (`rawText?`).
-/

namespace RevisionWatch.Json

variable {bs rest raw : Bytes}

/-! ## 1. The grammar -/

/-- The bytes between two quotes. -/
inductive TextBody : Bytes → Prop where
  | nil : TextBody []
  | plain {b : UInt8} {raw : Bytes} (hq : b ≠ quote) (hs : b ≠ 0x5C) (hc : ¬ b < 0x20)
      (h : TextBody raw) : TextBody (b :: raw)
  | escaped {b : UInt8} {raw : Bytes} (hb : (escaped? b).isSome = true) (h : TextBody raw) :
      TextBody (0x5C :: b :: raw)
  | numbered {a b c d : UInt8} {raw : Bytes} (ha : (hexDigit? a).isSome = true)
      (hb : (hexDigit? b).isSome = true) (hc : (hexDigit? c).isSome = true)
      (hd : (hexDigit? d).isSome = true) (h : TextBody raw) :
      TextBody (0x5C :: 0x75 :: a :: b :: c :: d :: raw)

/-- The byte stands for itself between two quotes. -/
def isPlain (b : UInt8) : Bool :=
  b != quote && b != 0x5C && !(b < 0x20)

theorem textBody_of_plain {raw : Bytes} (h : raw.all isPlain = true) : TextBody raw := by
  induction raw with
  | nil => exact .nil
  | cons b raw ih =>
    rw [List.all_cons, Bool.and_eq_true] at h
    have hb : b ≠ quote ∧ b ≠ 0x5C ∧ ¬ b < 0x20 := by
      simpa [isPlain, and_assoc] using h.1
    exact .plain hb.1 hb.2.1 hb.2.2 (ih h.2)

/-- A unit of four digits, and that it is read in front of anything. -/
theorem hexUnit_sound {u : Nat} (h : hexUnit bs = .ok (u, rest)) :
    ∃ a b c d, bs = a :: b :: c :: d :: rest ∧ (hexDigit? a).isSome = true ∧
      (hexDigit? b).isSome = true ∧ (hexDigit? c).isSome = true ∧ (hexDigit? d).isSome = true ∧
      ∀ rest', hexUnit (a :: b :: c :: d :: rest') = .ok (u, rest') := by
  unfold hexUnit at h
  split at h
  · rename_i a b c d rest₁
    split at h
    · rename_i a' b' c' d' ha hb hc hd
      cases h
      refine ⟨a, b, c, d, rfl, ?_, ?_, ?_, ?_, fun rest' => ?_⟩
      · rw [ha]; rfl
      · rw [hb]; rfl
      · rw [hc]; rfl
      · rw [hd]; rfl
      · rw [hexUnit, ha, hb, hc, hd]
    · cases h
  · cases h

theorem hexUnit_isOk {a b c d : UInt8} (ha : (hexDigit? a).isSome = true)
    (hb : (hexDigit? b).isSome = true) (hc : (hexDigit? c).isSome = true)
    (hd : (hexDigit? d).isSome = true) (rest : Bytes) :
    ∃ u, hexUnit (a :: b :: c :: d :: rest) = .ok (u, rest) := by
  obtain ⟨a', ha⟩ := Option.isSome_iff_exists.1 ha
  obtain ⟨b', hb⟩ := Option.isSome_iff_exists.1 hb
  obtain ⟨c', hc⟩ := Option.isSome_iff_exists.1 hc
  obtain ⟨d', hd⟩ := Option.isSome_iff_exists.1 hd
  exact ⟨_, by rw [hexUnit, ha, hb, hc, hd]⟩

/-! ## 2. Texts nobody asks for -/

theorem textBody_of_skipBodyFrom : ∀ {fuel bs rest : Bytes}, skipBodyFrom fuel bs = .ok rest →
    ∃ raw, bs = raw ++ quote :: rest ∧ TextBody raw
  | [], _, _, h => nomatch h
  | _ :: _, [], _, h => nomatch h
  | _ :: fuel, b :: bs, rest, h => by
    rw [skipBodyFrom.eq_def] at h
    dsimp only at h
    split at h
    · rename_i hq
      cases h
      exact ⟨[], by rw [beq_iff_eq.1 hq]; rfl, .nil⟩
    · rename_i hq
      split at h
      · rename_i hs
        rw [beq_iff_eq.1 hs]
        split at h
        · cases h
        · rename_i c bs₁
          split at h
          · rename_i hc
            obtain ⟨raw, rfl, hraw⟩ := textBody_of_skipBodyFrom h
            exact ⟨0x5C :: c :: raw, rfl, .escaped hc hraw⟩
          · split at h
            · rename_i hu
              split at h
              · cases h
              · rename_i u bs₂ hx
                obtain ⟨a, b', c', d, rfl, ha, hb, hc, hd, -⟩ := hexUnit_sound hx
                obtain ⟨raw, rfl, hraw⟩ := textBody_of_skipBodyFrom h
                exact ⟨0x5C :: c :: a :: b' :: c' :: d :: raw, rfl,
                  beq_iff_eq.1 hu ▸ .numbered ha hb hc hd hraw⟩
            · cases h
      · rename_i hs
        split at h
        · cases h
        · rename_i hc
          obtain ⟨raw, rfl, hraw⟩ := textBody_of_skipBodyFrom h
          exact ⟨b :: raw, rfl, .plain (mt beq_iff_eq.2 hq) (mt beq_iff_eq.2 hs) hc hraw⟩

theorem skipBodyFrom_of_textBody (h : TextBody raw) : ∀ {fuel : Bytes} (rest : Bytes),
    raw.length < fuel.length → skipBodyFrom fuel (raw ++ quote :: rest) = .ok rest := by
  induction h with
  | nil =>
    intro fuel rest hf
    cases fuel with
    | nil => exact absurd hf (Nat.not_lt_zero _)
    | cons f fuel => rfl
  | @plain b raw hq hs hc _ ih =>
    intro fuel rest hf
    cases fuel with
    | nil => exact absurd hf (Nat.not_lt_zero _)
    | cons f fuel =>
      rw [List.cons_append, skipBodyFrom.eq_def]
      dsimp only
      rw [if_neg (mt beq_iff_eq.1 hq), if_neg (mt beq_iff_eq.1 hs), if_neg hc]
      exact ih rest (Nat.lt_of_succ_lt_succ hf)
  | @escaped b raw hb _ ih =>
    intro fuel rest hf
    cases fuel with
    | nil => exact absurd hf (Nat.not_lt_zero _)
    | cons f fuel =>
      rw [List.cons_append, List.cons_append, skipBodyFrom.eq_def]
      dsimp only
      rw [if_neg (by decide), if_pos (by decide), if_pos hb]
      refine ih rest ?_
      simp only [List.length_cons] at hf
      omega
  | @numbered a b c d raw ha hb hc hd _ ih =>
    intro fuel rest hf
    cases fuel with
    | nil => exact absurd hf (Nat.not_lt_zero _)
    | cons f fuel =>
      obtain ⟨u, hu⟩ := hexUnit_isOk ha hb hc hd (raw ++ quote :: rest)
      simp only [List.cons_append]
      rw [skipBodyFrom.eq_def]
      dsimp only
      rw [if_neg (by decide), if_pos (by decide), if_neg (by decide), if_pos (by decide), hu]
      refine ih rest ?_
      simp only [List.length_cons] at hf
      omega

/-- **The texts that are skipped are those of the grammar.** -/
theorem skipBody_eq_ok :
    skipBody bs = .ok rest ↔ ∃ raw, bs = raw ++ quote :: rest ∧ TextBody raw := by
  constructor
  · exact textBody_of_skipBodyFrom
  · rintro ⟨raw, rfl, h⟩
    exact skipBodyFrom_of_textBody h rest (by rw [List.length_append, List.length_cons]; omega)

/-- A text ends at its first quote. -/
theorem TextBody.unique {raw' rest' : Bytes} (h : TextBody raw) (h' : TextBody raw')
    (heq : raw ++ quote :: rest = raw' ++ quote :: rest') : raw = raw' ∧ rest = rest' := by
  have hs : skipBody (raw ++ quote :: rest) = .ok rest := skipBody_eq_ok.2 ⟨raw, rfl, h⟩
  have hs' : skipBody (raw' ++ quote :: rest') = .ok rest' := skipBody_eq_ok.2 ⟨raw', rfl, h'⟩
  rw [heq, hs'] at hs
  cases hs
  exact ⟨List.append_cancel_right heq, rfl⟩

/-! ## 3. Texts that are read -/

/-- The characters that the bytes between two quotes stand for. -/
def rawText? (raw : Bytes) : Option String :=
  (textBody (raw ++ [quote])).toOption.map Prod.fst

/-- An escape by number takes one unit or two, in front of anything. -/
theorem numberedChar_sound {c : Char} (h : numberedChar bs = .ok (c, rest)) :
    ∃ e, bs = e ++ rest ∧ (∀ raw, TextBody raw → TextBody (0x5C :: 0x75 :: (e ++ raw))) ∧
      ∀ rest', numberedChar (e ++ rest') = .ok (c, rest') := by
  unfold numberedChar at h
  obtain ⟨⟨u, bs₁⟩, hu, hrest⟩ := bind_eq_ok h
  obtain ⟨a₁, b₁, c₁, d₁, rfl, ha₁, hb₁, hc₁, hd₁, hunit₁⟩ := hexUnit_sound hu
  dsimp only at hrest
  split at hrest
  · cases hrest
  · rename_i ht
    split at hrest
    · rename_i hl
      obtain ⟨bs₂, hw, hrest⟩ := bind_eq_ok hrest
      obtain ⟨⟨v, bs₃⟩, hv, hend⟩ := bind_eq_ok hrest
      rw [afterWord_eq_ok.1 hw]
      obtain ⟨a₂, b₂, c₂, d₂, rfl, ha₂, hb₂, hc₂, hd₂, hunit₂⟩ := hexUnit_sound hv
      dsimp only at hend
      split at hend
      · rename_i ht'
        obtain ⟨hc, rfl⟩ := Prod.mk.inj (Except.ok.inj hend)
        refine ⟨[a₁, b₁, c₁, d₁, 0x5C, 0x75, a₂, b₂, c₂, d₂], rfl, fun raw hraw => ?_,
          fun rest' => ?_⟩
        · exact .numbered ha₁ hb₁ hc₁ hd₁ (.numbered ha₂ hb₂ hc₂ hd₂ hraw)
        · unfold numberedChar
          show (hexUnit (a₁ :: b₁ :: c₁ :: d₁ :: _) >>= _) = _
          rw [hunit₁]
          show (if isTrailSurrogate u = true then _ else _) = _
          rw [if_neg ht, if_pos hl]
          show (hexUnit (a₂ :: b₂ :: c₂ :: d₂ :: rest') >>= _) = _
          rw [hunit₂]
          show (if isTrailSurrogate v = true then _ else _) = _
          rw [if_pos ht', hc]
      · cases hend
    · rename_i hl
      obtain ⟨hc, rfl⟩ := Prod.mk.inj (Except.ok.inj hrest)
      refine ⟨[a₁, b₁, c₁, d₁], rfl, fun raw hraw => .numbered ha₁ hb₁ hc₁ hd₁ hraw,
        fun rest' => ?_⟩
      unfold numberedChar
      show (hexUnit (a₁ :: b₁ :: c₁ :: d₁ :: rest') >>= _) = _
      rw [hunit₁]
      show (if isTrailSurrogate u = true then _ else _) = _
      rw [if_neg ht, if_neg hl, hc]

theorem escape_sound {es : Bytes} (h : escape bs = .ok (es, rest)) :
    ∃ e, bs = e ++ rest ∧ (∀ raw, TextBody raw → TextBody (0x5C :: (e ++ raw))) ∧
      ∀ rest', escape (e ++ rest') = .ok (es, rest') := by
  cases bs with
  | nil => cases h
  | cons b bs =>
    rw [escape] at h
    split at h
    · rename_i c hc
      cases h
      refine ⟨[b], rfl, fun raw hraw => .escaped (by rw [hc]; rfl) hraw, fun rest' => ?_⟩
      show escape (b :: rest') = _
      rw [escape, hc]
    · rename_i hnone
      split at h
      · rename_i hu
        obtain ⟨⟨c, bs₁⟩, hn, h⟩ := bind_eq_ok h
        cases h
        obtain ⟨e, rfl, hbody, hread⟩ := numberedChar_sound hn
        refine ⟨b :: e, rfl, fun raw hraw => ?_, fun rest' => ?_⟩
        · rw [beq_iff_eq.1 hu]
          exact hbody raw hraw
        · show escape (b :: (e ++ rest')) = _
          rw [escape, hnone]
          dsimp only
          rw [if_pos hu, hread rest']
          rfl
      · cases h

theorem textBytes_sound : ∀ {fuel acc bs cs rest : Bytes}, textBytes fuel acc bs = .ok (cs, rest) →
    ∃ raw, bs = raw ++ quote :: rest ∧ TextBody raw ∧ ∀ fuel' rest' : Bytes,
      raw.length < fuel'.length → textBytes fuel' acc (raw ++ quote :: rest') = .ok (cs, rest')
  | [], _, _, _, _, h => nomatch h
  | _ :: _, _, [], _, _, h => nomatch h
  | _ :: fuel, acc, b :: bs, cs, rest, h => by
    rw [textBytes] at h
    split at h
    · rename_i hq
      cases h
      refine ⟨[], by rw [beq_iff_eq.1 hq]; rfl, .nil, fun fuel' rest' hf => ?_⟩
      cases fuel' with
      | nil => exact absurd hf (Nat.not_lt_zero _)
      | cons f fuel' => rfl
    · rename_i hq
      split at h
      · rename_i hs
        split at h
        · cases h
        · rename_i es bs₁ he
          obtain ⟨e, rfl, hbody, hread⟩ := escape_sound he
          obtain ⟨raw, rfl, hraw, hcut⟩ := textBytes_sound h
          refine ⟨b :: (e ++ raw), by simp, beq_iff_eq.1 hs ▸ hbody raw hraw,
            fun fuel' rest' hf => ?_⟩
          cases fuel' with
          | nil => exact absurd hf (Nat.not_lt_zero _)
          | cons f fuel' =>
            rw [List.cons_append, List.append_assoc, textBytes, if_neg hq, if_pos hs, hread]
            refine hcut fuel' rest' ?_
            simp only [List.length_cons, List.length_append] at hf
            omega
      · rename_i hs
        split at h
        · cases h
        · rename_i hc
          obtain ⟨raw, rfl, hraw, hcut⟩ := textBytes_sound h
          refine ⟨b :: raw, rfl, .plain (mt beq_iff_eq.2 hq) (mt beq_iff_eq.2 hs) hc hraw,
            fun fuel' rest' hf => ?_⟩
          cases fuel' with
          | nil => exact absurd hf (Nat.not_lt_zero _)
          | cons f fuel' =>
            rw [List.cons_append, textBytes, if_neg hq, if_neg hs, if_neg hc]
            exact hcut fuel' rest' (Nat.lt_of_succ_lt_succ hf)

/-- **A text that is read is one of the grammar**, and it is what its bytes mean. -/
theorem textBody_sound {s : String} (h : textBody bs = .ok (s, rest)) :
    ∃ raw, bs = raw ++ quote :: rest ∧ TextBody raw ∧ rawText? raw = some s := by
  unfold textBody at h
  obtain ⟨⟨cs, bs₁⟩, ht, h⟩ := bind_eq_ok h
  dsimp only at h
  split at h
  · rename_i s' hs
    cases h
    obtain ⟨raw, hbs, hraw, hcut⟩ := textBytes_sound ht
    refine ⟨raw, hbs, hraw, ?_⟩
    unfold rawText? textBody
    rw [hcut (raw ++ [quote]) [] (by rw [List.length_append]; exact Nat.lt_succ_self _), ok_bind]
    dsimp only
    rw [hs]
    rfl
  · cases h

end RevisionWatch.Json
