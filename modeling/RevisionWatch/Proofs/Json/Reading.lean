import RevisionWatch.Proofs.Json.Grammar
/-!
# What readers find in the bytes

A reader is sound for a meaning of trees (`Sound`) if what it takes from the front of the bytes is
spelled there as a tree that means what was read. This file has the scalars (`scalar?_spells`) and
the values nobody asks for (`skip_spells`): skipping keeps a list of the containers that are open,
and what these leave to be read behind every step (`Closing`) is its invariant.
-/

namespace RevisionWatch.Json

variable {α : Type} {bs rest : Bytes}

/-! ## 1. Soundness -/

/-- What is read is spelled in front, by a tree that means it. -/
def Sound (read : Reader α) (means : Tree → α → Prop) : Prop :=
  ∀ ⦃bs a rest⦄, read bs = .ok (a, rest) → ∃ t, Spells bs (.value t) rest ∧ means t a

theorem Sound.mono {read : Reader α} {means means' : Tree → α → Prop} (h : Sound read means)
    (hm : ∀ t a, means t a → means' t a) : Sound read means' := by
  intro bs a rest hr
  obtain ⟨t, hs, ht⟩ := h hr
  exact ⟨t, hs, hm t a ht⟩

/-! ## 2. Scalars -/

theorem someDigits_short {short : Fault} {ds : List Nat} (h : someDigits short bs = .ok (ds, rest))
    (short' : Fault) : someDigits short' bs = .ok (ds, rest) :=
  someDigits_eq_ok.2 (someDigits_eq_ok.1 h)

theorem wholePart_short {short : Fault} {ds : List Nat} (h : wholePart short bs = .ok (ds, rest))
    (short' : Fault) : wholePart short' bs = .ok (ds, rest) := by
  unfold wholePart at h ⊢
  obtain ⟨⟨ds', rest'⟩, hd, h⟩ := bind_eq_ok h
  rw [someDigits_short hd short']
  exact h

theorem exponentPart_short {short : Fault} {e : Option (Bool × List Nat)}
    (h : exponentPart short bs = .ok (e, rest)) (short' : Fault) :
    exponentPart short' bs = .ok (e, rest) := by
  cases bs with
  | nil => exact h
  | cons b bs =>
    rw [exponentPart.eq_def] at h ⊢
    dsimp only at h ⊢
    split at h
    · rename_i hb
      rw [if_pos hb]
      obtain ⟨⟨ds, rest'⟩, hd, h⟩ := bind_eq_ok h
      rw [someDigits_short hd short']
      exact h
    · rename_i hb
      rw [if_neg hb]
      exact h

/-- The fault of a short number and its sign do not matter to its digits. -/
theorem numeral_short {short : Fault} {negative : Bool} {n : Numeral}
    (h : numeral short negative bs = .ok (n, rest)) :
    n.negative = negative ∧ ∀ short' negative',
      numeral short' negative' bs = .ok ({ n with negative := negative' }, rest) := by
  unfold numeral at h
  obtain ⟨⟨whole, bs₁⟩, hw, h⟩ := bind_eq_ok h
  dsimp only at h
  split at h
  · obtain ⟨⟨ds, bs₂⟩, hd, h⟩ := bind_eq_ok h
    obtain ⟨⟨exponent, bs₃⟩, he, h⟩ :=
      bind_eq_ok (show (exponentPart short bs₂ >>= _) = _ from h)
    cases h
    refine ⟨rfl, fun short' negative' => ?_⟩
    unfold numeral
    rw [wholePart_short hw short']
    show (someDigits short' _ >>= _) = _
    rw [someDigits_short hd short']
    show (exponentPart short' bs₂ >>= _) = _
    rw [exponentPart_short he short']
    rfl
  · rename_i hdot
    obtain ⟨⟨exponent, bs₃⟩, he, h⟩ :=
      bind_eq_ok (show (exponentPart short bs₁ >>= _) = _ from h)
    cases h
    refine ⟨rfl, fun short' negative' => ?_⟩
    unfold numeral
    rw [wholePart_short hw short', ok_bind]
    dsimp only
    split
    · rename_i heq
      exact absurd rfl (hdot _)
    · show (exponentPart short' bs₁ >>= _) = _
      rw [exponentPart_short he short']
      rfl

/-- What a scalar means. -/
def Tree.Scalar : Tree → Value → Prop
  | .null, v => v = .null
  | .boolean b, v => v = .boolean b
  | .number n, v => n.value? = some v
  | .text raw, v => ∃ s, rawText? raw = some s ∧ v = .text s
  | _, _ => False

theorem numberBody_numeral {negative : Bool} {v : Value}
    (h : numberBody negative bs = .ok (v, rest)) :
    ∃ n, numeral .malformed negative bs = .ok (n, rest) ∧ n.value? = some v := by
  unfold numberBody at h
  obtain ⟨⟨n, bs₁⟩, hn, h⟩ := bind_eq_ok h
  dsimp only at h
  split at h
  · rename_i v' hv
    cases h
    obtain ⟨hneg, hshort⟩ := numeral_short hn
    refine ⟨n, ?_, hv⟩
    rw [hshort .malformed negative, ← hneg]
  · cases h

/-- A scalar that is read is spelled by a scalar. -/
theorem scalar?_spells {b : UInt8} {bs' : Bytes} {v : Value} (hd : dropBlanks bs = b :: bs')
    (h : scalar? b bs' = some (.ok (v, rest))) :
    ∃ t, Spells bs (.value t) rest ∧ t.Scalar v := by
  rw [scalar?_eq] at h
  cases hb : leadOf b <;> rw [hb] at h
  case null =>
    obtain ⟨r, hw, h⟩ := map_eq_ok (Option.some.inj h)
    cases h
    exact ⟨.null, .null hd hb hw, rfl⟩
  case true =>
    obtain ⟨r, hw, h⟩ := map_eq_ok (Option.some.inj h)
    cases h
    exact ⟨.boolean true, .true hd hb hw, rfl⟩
  case false =>
    obtain ⟨r, hw, h⟩ := map_eq_ok (Option.some.inj h)
    cases h
    exact ⟨.boolean false, .false hd hb hw, rfl⟩
  case minus =>
    obtain ⟨n, hn, hv⟩ := numberBody_numeral (Option.some.inj h)
    exact ⟨.number n, .minus hd hb hn, hv⟩
  case digit =>
    obtain ⟨n, hn, hv⟩ := numberBody_numeral (Option.some.inj h)
    exact ⟨.number n, .digit hd hb hn, hv⟩
  case quote =>
    obtain ⟨⟨s, r⟩, ht, h⟩ := bind_eq_ok (Option.some.inj h)
    cases h
    obtain ⟨raw, rfl, hraw, hs⟩ := textBody_sound ht
    exact ⟨.text raw, .text hd hb hraw, s, hs, rfl⟩
  case list => cases h
  case object => cases h
  case other => cases h

/-! ## 3. Values nobody asks for -/

/-- What is left of a container behind its bracket or an item, down to what follows it. -/
def Container.Left (first : Bool) (bs rest : Bytes) : Container → Prop
  | .list => ∃ ts, Spells bs (.items first ts) rest
  | .object => ∃ ms, Spells bs (.members first ms) rest

/-- What the containers that are open leave to be read behind an item of the innermost. -/
def Closing : List Container → Bytes → Bytes → Prop
  | [], bs, rest => bs = rest
  | c :: opened, bs, rest => ∃ bs', c.Left false bs bs' ∧ Closing opened bs' rest

/-- What is to be read where skipping stands. -/
def Skipped : Stance → List Container → Bytes → Bytes → Prop
  | .before, opened, bs, rest => ∃ t bs', Spells bs (.value t) bs' ∧ Closing opened bs' rest
  | .behind, opened, bs, rest => Closing opened bs rest

theorem skipKey_spells {bs' : Bytes} (h : skipKey bs = .ok bs') :
    ∃ raw bs₁, bs = raw ++ quote :: bs₁ ∧ TextBody raw ∧ dropBlanks bs₁ = colon :: bs' := by
  unfold skipKey at h
  obtain ⟨bs₁, ht, h⟩ := bind_eq_ok h
  obtain ⟨raw, hbs, hraw⟩ := skipBody_eq_ok.1 ht
  exact ⟨raw, bs₁, hbs, hraw, afterByte_eq_ok.1 h⟩

/-- The step to the next item of a container, or out of it, leaves what is to be read. -/
theorem skipOn_spells {c : Container} {opened opened' : List Container} {first : Bool}
    {stance' : Stance} {bs' : Bytes} (h : skipOn c opened first bs = .ok (stance', opened', bs'))
    (hs : Skipped stance' opened' bs' rest) :
    ∃ bs₁, c.Left first bs bs₁ ∧ Closing opened bs₁ rest := by
  unfold skipOn at h
  split at h
  · cases h
  · rename_i bs₁ hto
    cases h
    obtain ⟨t, bs₂, ht, bs₃, hleft, hclose⟩ := hs
    refine ⟨bs₃, ?_, hclose⟩
    cases c with
    | list =>
      obtain ⟨ts, hts⟩ := hleft
      exact ⟨t :: ts, .item (nextItem_eq_ok.1 hto) ht hts⟩
    | object =>
      obtain ⟨ms, hms⟩ := hleft
      unfold skipTo at hto
      obtain ⟨key?, hkey, hto⟩ := bind_eq_ok hto
      cases key? with
      | none => cases hto
      | some bs₄ =>
        obtain ⟨bs₅, hskip, heq⟩ := map_eq_ok hto
        cases heq
        obtain ⟨raw, bs₆, rfl, hraw, hcolon⟩ := skipKey_spells hskip
        exact ⟨(raw, t) :: ms, .member (nextKey_eq_ok.1 hkey) hraw hcolon ht hms⟩
  · rename_i hto
    cases h
    refine ⟨(dropBlanks bs).drop 1, ?_, hs⟩
    cases c with
    | list =>
      cases nextItem_eq_ok.1 hto with
      | closed _ bs₁ hd =>
        rw [hd]
        exact ⟨[], .endItems hd⟩
    | object =>
      unfold skipTo at hto
      obtain ⟨key?, hkey, hto⟩ := bind_eq_ok hto
      cases key? with
      | none =>
        cases nextKey_eq_ok.1 hkey with
        | closed _ bs₁ hd =>
          rw [hd]
          exact ⟨[], .endMembers hd⟩
      | some bs₄ =>
        obtain ⟨bs₅, -, heq⟩ := map_eq_ok hto
        cases heq

/-- What starts in front is a scalar, or a container whose items come next. -/
theorem skipStart_spells {c? : Option Container} {bs' : Bytes} (h : skipStart bs = .ok (c?, bs')) :
    match c? with
    | none => ∃ t, Spells bs (.value t) bs'
    | some c => ∀ bs₁, c.Left true bs' bs₁ → ∃ t, Spells bs (.value t) bs₁ := by
  rw [skipStart_eq] at h
  cases hd : dropBlanks bs with
  | nil =>
    rw [hd] at h
    cases h
  | cons b bs₀ =>
    rw [hd] at h
    dsimp only at h
    cases hb : leadOf b <;> rw [hb] at h
    case null =>
      obtain ⟨r, hw, h⟩ := map_eq_ok h
      cases h
      exact ⟨.null, .null hd hb hw⟩
    case true =>
      obtain ⟨r, hw, h⟩ := map_eq_ok h
      cases h
      exact ⟨.boolean true, .true hd hb hw⟩
    case false =>
      obtain ⟨r, hw, h⟩ := map_eq_ok h
      cases h
      exact ⟨.boolean false, .false hd hb hw⟩
    case minus =>
      obtain ⟨r, hn, h⟩ := map_eq_ok h
      cases h
      obtain ⟨⟨n, r'⟩, hn, h⟩ := bind_eq_ok hn
      cases h
      exact ⟨_, .minus hd hb ((numeral_short hn).2 _ _)⟩
    case digit =>
      obtain ⟨r, hn, h⟩ := map_eq_ok h
      cases h
      obtain ⟨⟨n, r'⟩, hn, h⟩ := bind_eq_ok hn
      cases h
      exact ⟨_, .digit hd hb hn⟩
    case quote =>
      obtain ⟨r, ht, h⟩ := map_eq_ok h
      cases h
      obtain ⟨raw, rfl, hraw⟩ := skipBody_eq_ok.1 ht
      exact ⟨.text raw, .text hd hb hraw⟩
    case list =>
      cases h
      rintro bs₁ ⟨ts, hts⟩
      exact ⟨.list ts, .list hd hb hts⟩
    case object =>
      cases h
      rintro bs₁ ⟨ms, hms⟩
      exact ⟨.object ms, .object hd hb hms⟩
    case other => cases h

/-- One step leaves what is to be read. -/
theorem skipStep_spells {stance stance' : Stance} {opened opened' : List Container} {bs' : Bytes}
    (h : skipStep stance opened bs = .ok (stance', opened', bs'))
    (hs : Skipped stance' opened' bs' rest) : Skipped stance opened bs rest := by
  cases stance with
  | before =>
    unfold skipStep at h
    dsimp only at h
    split at h
    · cases h
    · rename_i bs₁ hstart
      cases h
      obtain ⟨t, ht⟩ := skipStart_spells hstart
      exact ⟨t, _, ht, hs⟩
    · rename_i c bs₁ hstart
      obtain ⟨bs₂, hleft, hclose⟩ := skipOn_spells h hs
      obtain ⟨t, ht⟩ := skipStart_spells hstart bs₂ hleft
      exact ⟨t, bs₂, ht, hclose⟩
  | behind =>
    cases opened with
    | nil =>
      cases h
      exact hs
    | cons c opened => exact skipOn_spells h hs

theorem skipFrom_spells :
    ∀ {fuel : Bytes} {stance : Stance} {opened : List Container} {bs rest : Bytes},
      skipFrom fuel stance opened bs = .ok rest → Skipped stance opened bs rest := by
  intro fuel
  induction fuel with
  | nil =>
    intro stance opened bs rest h
    cases stance with
    | before => cases h
    | behind =>
      cases opened with
      | nil =>
        rw [skipFrom_done] at h
        exact Except.ok.inj h
      | cons c opened => cases h
  | cons f fuel ih =>
    intro stance opened bs rest h
    by_cases hdone : stance = .behind ∧ opened = []
    · obtain ⟨rfl, rfl⟩ := hdone
      rw [skipFrom_done] at h
      exact Except.ok.inj h
    · rw [skipFrom_cons fun hs ho => hdone ⟨hs, ho⟩] at h
      split at h
      · cases h
      · rename_i hstep
        exact skipStep_spells hstep (ih h)

/-- **What is skipped is a value**, however deep. -/
theorem skip_spells (h : skip bs = .ok rest) : ∃ t, Spells bs (.value t) rest := by
  obtain ⟨t, bs', ht, hclose⟩ := skipFrom_spells h
  exact ⟨t, (show bs' = rest from hclose) ▸ ht⟩

end RevisionWatch.Json
