import RevisionWatch.Proofs.Json.Reading
/-!
# What is spelled can be skipped

Skipping finds the end of every value that the grammar allows, however deep it is nested and
whatever its numbers and texts hold (`skip_eq_ok`). Skipping takes one step for every item and is
given a byte for every step, so what counts is that a part of a text has a byte of its own
(`Spells.length_lt`); the induction is on the spelling, with any containers open around the part
(`Part.Skippable`).
-/

namespace RevisionWatch.Json

variable {bs rest : Bytes}

/-! ## 1. Every part has a byte -/

theorem dropBlanks_length : ∀ {bs : Bytes}, (dropBlanks bs).length ≤ bs.length
  | [] => Nat.le_refl 0
  | b :: bs => by
    rw [dropBlanks]
    split
    · exact Nat.le_succ_of_le dropBlanks_length
    · exact Nat.le_refl _

theorem length_of_dropBlanks {b : UInt8} (h : dropBlanks bs = b :: rest) :
    rest.length < bs.length := by
  have hle : (dropBlanks bs).length ≤ bs.length := dropBlanks_length
  rw [h, List.length_cons] at hle
  exact hle

theorem digitsFrom_length : ∀ {acc ds : List Nat} {bs rest : Bytes},
    digitsFrom acc bs = (ds, rest) → rest.length + ds.length = bs.length + acc.length
  | acc, ds, [], rest, h => by
    cases h
    simp
  | acc, ds, b :: bs, rest, h => by
    rw [digitsFrom] at h
    split at h
    · have ih := digitsFrom_length h
      simp only [List.length_cons] at ih ⊢
      omega
    · cases h
      simp

theorem someDigits_length {short : Fault} {ds : List Nat}
    (h : someDigits short bs = .ok (ds, rest)) : rest.length < bs.length := by
  obtain ⟨hd, hne⟩ := someDigits_eq_ok.1 h
  have hlen := digitsFrom_length hd
  have hpos : 0 < ds.length := List.length_pos_iff.2 hne
  simp only [List.length_nil] at hlen
  omega

theorem wholePart_length {short : Fault} {ds : List Nat} (h : wholePart short bs = .ok (ds, rest)) :
    rest.length < bs.length := by
  unfold wholePart at h
  obtain ⟨⟨ds', rest'⟩, hd, h⟩ := bind_eq_ok h
  dsimp only at h
  split at h
  · cases h
  · cases h
    exact someDigits_length hd

theorem exponentPart_length {short : Fault} {e : Option (Bool × List Nat)}
    (h : exponentPart short bs = .ok (e, rest)) : rest.length ≤ bs.length := by
  cases bs with
  | nil =>
    cases h
    exact Nat.le_refl 0
  | cons b bs =>
    rw [exponentPart.eq_def] at h
    dsimp only at h
    split at h
    · obtain ⟨⟨ds, rest'⟩, hd, h⟩ := bind_eq_ok h
      cases h
      have hlen := someDigits_length hd
      -- the sign, if there is one, is a byte more
      cases bs with
      | nil =>
        simp only [List.length_nil] at hlen
        omega
      | cons c bs =>
        dsimp only at hlen
        split at hlen
        · dsimp only [List.length_cons] at hlen ⊢
          omega
        · split at hlen <;> dsimp only [List.length_cons] at hlen ⊢ <;> omega
    · cases h
      exact Nat.le_refl _

theorem numeral_length {short : Fault} {negative : Bool} {n : Numeral}
    (h : numeral short negative bs = .ok (n, rest)) : rest.length < bs.length := by
  unfold numeral at h
  obtain ⟨⟨whole, bs₁⟩, hw, h⟩ := bind_eq_ok h
  have hwhole := wholePart_length hw
  dsimp only at h
  split at h
  · obtain ⟨⟨ds, bs₂⟩, hd, h⟩ := bind_eq_ok h
    obtain ⟨⟨exponent, bs₃⟩, he, h⟩ :=
      bind_eq_ok (show (exponentPart short bs₂ >>= _) = _ from h)
    cases h
    have hdigits := someDigits_length hd
    have hexponent := exponentPart_length he
    rw [List.length_cons] at hwhole
    show bs₃.length < bs.length
    omega
  · obtain ⟨⟨exponent, bs₃⟩, he, h⟩ :=
      bind_eq_ok (show (exponentPart short bs₁ >>= _) = _ from h)
    cases h
    have hexponent := exponentPart_length he
    show bs₃.length < bs.length
    omega

/-- The step to an item takes no byte of it, and the comma if there is one. -/
theorem ItemStep.length_le {first : Bool} {bs₁ : Bytes} (h : ItemStep bs first (some bs₁)) :
    bs₁.length + (if first then 0 else 1) ≤ bs.length := by
  cases h with
  | opening b rest h hb =>
    have hlen : (dropBlanks bs).length ≤ bs.length := dropBlanks_length
    rw [h] at hlen
    exact hlen
  | parted rest c rest' h h' hc =>
    have hlen := length_of_dropBlanks h
    have hlen' : (dropBlanks rest).length ≤ rest.length := dropBlanks_length
    rw [h'] at hlen'
    simp only [Bool.false_eq_true, if_false]
    omega

/-- The step to a key takes its quote, and the comma if there is one. -/
theorem KeyStep.length_le {first : Bool} {bs₁ : Bytes} (h : KeyStep bs first (some bs₁)) :
    bs₁.length + 1 + (if first then 0 else 1) ≤ bs.length := by
  cases h with
  | opening rest h => exact length_of_dropBlanks h
  | parted rest rest' h h' =>
    have hlen := length_of_dropBlanks h
    have hlen' := length_of_dropBlanks h'
    simp only [Bool.false_eq_true, if_false]
    omega

theorem afterWord_length {ws : Bytes} (h : afterWord ws bs = .ok rest) :
    rest.length ≤ bs.length := by
  rw [afterWord_eq_ok.1 h, List.length_append]
  omega

/-- **A part of a text has a byte of its own.** -/
theorem Spells.length_lt {p : Part} (h : Spells bs p rest) : rest.length < bs.length := by
  induction h with
  | null h hb hw | true h hb hw | false h hb hw =>
    exact Nat.lt_of_le_of_lt (afterWord_length hw) (length_of_dropBlanks h)
  | minus h hb hn => exact Nat.lt_trans (numeral_length hn) (length_of_dropBlanks h)
  | digit h hb hn =>
    have hlen := numeral_length hn
    rw [← h] at hlen
    exact Nat.lt_of_lt_of_le hlen dropBlanks_length
  | text h hb ht =>
    have hlen := length_of_dropBlanks h
    simp only [List.length_append, List.length_cons] at hlen
    omega
  | list h hb _ ih | object h hb _ ih => exact Nat.lt_trans ih (length_of_dropBlanks h)
  | endItems h | endMembers h => exact length_of_dropBlanks h
  | item h _ _ iht ihts =>
    have hlen := h.length_le
    omega
  | member h hk hc _ _ iht ihms =>
    have hlen := h.length_le
    have hcolon := length_of_dropBlanks hc
    simp only [List.length_append, List.length_cons] at hlen
    omega

/-- Behind an item fewer bytes are left than in front of it. -/
theorem ItemStep.length_lt {first : Bool} {bs₁ bs₂ : Bytes} {t : Tree}
    (h : ItemStep bs first (some bs₁)) (ht : Spells bs₁ (.value t) bs₂) :
    bs₂.length < bs.length := by
  have hle := h.length_le
  have hlt := ht.length_lt
  omega

/-- Behind a member fewer bytes are left than in front of it. -/
theorem KeyStep.length_lt {first : Bool} {raw bs₁ bs₂ bs₃ : Bytes} {t : Tree}
    (h : KeyStep bs first (some (raw ++ quote :: bs₁))) (hc : dropBlanks bs₁ = colon :: bs₂)
    (ht : Spells bs₂ (.value t) bs₃) : bs₃.length < bs.length := by
  have hle := h.length_le
  have hcolon := length_of_dropBlanks hc
  have hlt := ht.length_lt
  simp only [List.length_append, List.length_cons] at hle
  omega

/-- A part in front leaves fuel for a step. -/
theorem Spells.exists_fuel {p : Part} {fuel : Bytes} (h : Spells bs p rest)
    (hf : bs.length ≤ fuel.length) : ∃ f fuel', fuel = f :: fuel' := by
  cases fuel with
  | nil => exact absurd (Nat.lt_of_lt_of_le h.length_lt hf) (Nat.not_lt_zero _)
  | cons f fuel => exact ⟨f, fuel, rfl⟩

/-! ## 2. Skipping a part -/

/-- Skipping goes on behind the part that stands in front, in the containers that are open. -/
def GoesOn (fuel : Bytes) (stance : Stance) (opened : List Container) (bs : Bytes)
    (around : List Container) (rest : Bytes) : Prop :=
  ∃ fuel' : Bytes, rest.length ≤ fuel'.length ∧
    skipFrom fuel stance opened bs = skipFrom fuel' .behind around rest

/-- What is left of a container can be skipped from the step to its next item on. -/
def Container.Skippable (c : Container) (first : Bool) (bs rest : Bytes) : Prop :=
  ∀ (around : List Container) (fuel : Bytes), bs.length ≤ fuel.length + (if first then 0 else 1) →
    ∃ stance opened bs', skipOn c around first bs = .ok (stance, opened, bs') ∧
      GoesOn fuel stance opened bs' around rest

/-- A part can be skipped with any containers open around it. -/
def Part.Skippable (bs rest : Bytes) : Part → Prop
  | .value _ => ∀ (around : List Container) (fuel : Bytes), bs.length ≤ fuel.length →
    GoesOn fuel .before around bs around rest
  | .items first _ => Container.list.Skippable first bs rest
  | .members first _ => Container.object.Skippable first bs rest

theorem not_done (opened : List Container) : Stance.before = .behind → opened ≠ [] :=
  fun h => nomatch h

/-- A scalar is skipped in one step. -/
theorem goesOn_scalar {around : List Container} {fuel : Bytes}
    (h : skipStart bs = .ok (none, rest)) (hlt : rest.length < bs.length)
    (hf : bs.length ≤ fuel.length) : GoesOn fuel .before around bs around rest := by
  cases fuel with
  | nil => exact absurd (Nat.lt_of_lt_of_le hlt hf) (Nat.not_lt_zero _)
  | cons f fuel =>
    refine ⟨fuel, Nat.le_of_lt_succ (Nat.lt_of_lt_of_le hlt hf), ?_⟩
    rw [skipFrom_cons (not_done around), skipStep, h]

/-- A container is skipped from its bracket on. -/
theorem goesOn_container {around : List Container} {fuel bs' : Bytes} {c : Container}
    (h : skipStart bs = .ok (some c, bs')) (hlt : bs'.length < bs.length)
    (hc : c.Skippable true bs' rest) (hf : bs.length ≤ fuel.length) :
    GoesOn fuel .before around bs around rest := by
  cases fuel with
  | nil => exact absurd (Nat.lt_of_lt_of_le hlt hf) (Nat.not_lt_zero _)
  | cons f fuel =>
    have hf' : bs'.length ≤ fuel.length := Nat.le_of_lt_succ (Nat.lt_of_lt_of_le hlt hf)
    obtain ⟨stance, opened, bs₁, hon, fuel', hrest, hgo⟩ := hc around fuel hf'
    refine ⟨fuel', hrest, ?_⟩
    rw [skipFrom_cons (not_done around), skipStep, h]
    dsimp only
    rw [hon]
    exact hgo

/-- At its bracket a container is left. -/
theorem skippable_closed {c : Container} {first : Bool} (h : skipTo c first bs = .ok none)
    (hlt : ((dropBlanks bs).drop 1).length < bs.length) :
    c.Skippable first bs ((dropBlanks bs).drop 1) := by
  intro around fuel hf
  refine ⟨.behind, around, (dropBlanks bs).drop 1, ?_, fuel, ?_, rfl⟩
  · rw [skipOn, h]
  · split at hf <;> omega

/-- An item is skipped, and then what is left of its container. -/
theorem skippable_item {c : Container} {first : Bool} {bs₁ bs₂ : Bytes}
    (h : skipTo c first bs = .ok (some bs₁))
    (hle : bs₁.length + (if first then 0 else 1) ≤ bs.length) (hlt : rest.length < bs₂.length)
    (hitem : ∀ (around : List Container) (fuel : Bytes), bs₁.length ≤ fuel.length →
      GoesOn fuel .before around bs₁ around bs₂)
    (hrest : c.Skippable false bs₂ rest) : c.Skippable first bs rest := by
  intro around fuel hf
  have hf₁ : bs₁.length ≤ fuel.length := by
    cases first <;> simp at hf hle <;> omega
  obtain ⟨fuel₁, hf₂, hgo₁⟩ := hitem (c :: around) fuel hf₁
  refine ⟨.before, c :: around, bs₁, by rw [skipOn, h], ?_⟩
  cases fuel₁ with
  | nil => exact absurd (Nat.lt_of_lt_of_le hlt hf₂) (Nat.not_lt_zero _)
  | cons f fuel₂ =>
    obtain ⟨stance, opened, bs₃, hon, fuel₃, hf₃, hgo₂⟩ := hrest around fuel₂ hf₂
    refine ⟨fuel₃, hf₃, hgo₁.trans ?_⟩
    rw [skipFrom_cons fun _ => List.cons_ne_nil c around, skipStep, hon]
    exact hgo₂

/-- What starts with the byte is skipped, or opens a container. -/
theorem skipStart_of_valueAt {b : UInt8} {bs' : Bytes} {t : Tree} (h : dropBlanks bs = b :: bs')
    (hb : (leadOf b).opens = false) (hv : ValueAt b bs' t rest) :
    skipStart bs = .ok (none, rest) := by
  have hnumber : ∀ {negative : Bool} {n : Numeral} {bs : Bytes},
      numeral .malformed negative bs = .ok (n, rest) → skipNumber bs = .ok rest := by
    intro negative n bs hn
    unfold skipNumber
    rw [(numeral_short hn).2 .malformed false]
    rfl
  rw [skipStart_eq, h]
  unfold ValueAt at hv
  dsimp only
  generalize leadOf b = lead at hb hv
  cases lead with
  | null =>
    obtain ⟨-, hw⟩ := hv
    exact map_ok hw _
  | true =>
    obtain ⟨-, hw⟩ := hv
    exact map_ok hw _
  | false =>
    obtain ⟨-, hw⟩ := hv
    exact map_ok hw _
  | minus =>
    obtain ⟨n, -, hn⟩ := hv
    exact map_ok (hnumber hn) _
  | digit =>
    obtain ⟨n, -, hn⟩ := hv
    exact map_ok (hnumber hn) _
  | quote =>
    obtain ⟨raw, -, hraw, ht⟩ := hv
    exact map_ok (skipBody_eq_ok.2 ⟨raw, hraw, ht⟩) _
  | list => cases hb
  | object => cases hb
  | other => exact hv.elim

/-- A value that is no container can be skipped. -/
theorem skippable_leaf {b : UInt8} {bs' : Bytes} {t : Tree} (h : dropBlanks bs = b :: bs')
    (hb : (leadOf b).opens = false) (hs : Spells bs (.value t) rest) :
    Part.Skippable bs rest (.value t) := by
  intro around fuel hf
  obtain ⟨t', heq, hv⟩ := ValueAt.of_part (Part.alike_value t t) h hs
  cases heq
  exact goesOn_scalar (skipStart_of_valueAt h hb hv) hs.length_lt hf

/-- **Every part of a text can be skipped.** -/
theorem Spells.skippable {p : Part} (h : Spells bs p rest) : p.Skippable bs rest := by
  induction h with
  | null h hb hw => exact skippable_leaf h (by rw [hb]; rfl) (.null h hb hw)
  | true h hb hw => exact skippable_leaf h (by rw [hb]; rfl) (.true h hb hw)
  | false h hb hw => exact skippable_leaf h (by rw [hb]; rfl) (.false h hb hw)
  | minus h hb hn => exact skippable_leaf h (by rw [hb]; rfl) (.minus h hb hn)
  | digit h hb hn => exact skippable_leaf h (by rw [hb]; rfl) (.digit h hb hn)
  | text h hb ht => exact skippable_leaf h (by rw [hb]; rfl) (.text h hb ht)
  | @list bs rest b bs' ts h hb _ ih =>
    have hstart : skipStart bs = .ok (some .list, bs') := by rw [skipStart_eq, h]; simp [hb]
    exact fun around fuel => goesOn_container hstart (length_of_dropBlanks h) ih
  | @object bs rest b bs' ms h hb _ ih =>
    have hstart : skipStart bs = .ok (some .object, bs') := by rw [skipStart_eq, h]; simp [hb]
    exact fun around fuel => goesOn_container hstart (length_of_dropBlanks h) ih
  | @endItems bs rest first h =>
    have hto : skipTo .list first bs = .ok none := nextItem_eq_ok.2 (.closed first rest h)
    have hleft : (dropBlanks bs).drop 1 = rest := by rw [h]; rfl
    rw [← hleft]
    exact skippable_closed hto (by rw [hleft]; exact length_of_dropBlanks h)
  | @item bs bs₁ bs₂ rest first t ts h _ hts iht ihts =>
    exact skippable_item (nextItem_eq_ok.2 h) h.length_le hts.length_lt iht ihts
  | @endMembers bs rest first h =>
    have hto : skipTo .object first bs = .ok none := by
      rw [skipTo, nextKey_eq_ok.2 (.closed first rest h)]
      rfl
    have hleft : (dropBlanks bs).drop 1 = rest := by rw [h]; rfl
    rw [← hleft]
    exact skippable_closed hto (by rw [hleft]; exact length_of_dropBlanks h)
  | @member bs raw bs₁ bs₂ bs₃ rest first t ms h hk hc _ hms iht ihms =>
    have hkey : skipKey (raw ++ quote :: bs₁) = .ok bs₂ := by
      rw [skipKey, skipBody_eq_ok.2 ⟨raw, rfl, hk⟩]
      exact afterByte_eq_ok.2 hc
    have hto : skipTo .object first bs = .ok (some bs₂) := by
      rw [skipTo, nextKey_eq_ok.2 h, ok_bind]
      exact map_ok hkey _
    refine skippable_item hto ?_ hms.length_lt iht ihms
    have hlen := h.length_le
    have hcolon := length_of_dropBlanks hc
    simp only [List.length_append, List.length_cons] at hlen
    omega

/-- **What can be skipped is what is spelled.** -/
theorem skip_eq_ok : skip bs = .ok rest ↔ ∃ t, Spells bs (.value t) rest := by
  constructor
  · exact skip_spells
  · rintro ⟨t, h⟩
    obtain ⟨fuel, -, hgo⟩ := h.skippable [] bs (Nat.le_refl _)
    unfold skip
    rw [hgo, skipFrom_done]

end RevisionWatch.Json
