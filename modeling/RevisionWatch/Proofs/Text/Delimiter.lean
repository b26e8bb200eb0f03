import RevisionWatch.Text.Bytes
/-!
# Delimiters

`splitAt?` cuts bytes at the first occurrence of a delimiter: `splitAt?_eq_some_iff` says which
occurrence that is, without the scan that finds it. Bytes behind the ones at hand cannot make an
earlier occurrence, so the cut stays where it is when more come (`splitAt?_append`).
-/

namespace RevisionWatch.Bytes

variable {d bs front back rest : Bytes} {n k : Nat}

theorem after?_eq_some_iff : ∀ {d bs rest : Bytes}, after? d bs = some rest ↔ bs = d ++ rest
  | [], bs, rest => by
    rw [after?]
    exact ⟨fun h => Option.some.inj h, fun h => congrArg some h⟩
  | x :: d, [], rest => by
    rw [after?]
    exact ⟨fun h => (nomatch h), fun h => (nomatch h)⟩
  | x :: d, b :: bs, rest => by
    rw [after?]
    by_cases hx : x = b
    · rw [if_pos (beq_iff_eq.2 hx), after?_eq_some_iff, hx, List.cons_append, List.cons.injEq]
      exact ⟨fun h => ⟨rfl, h⟩, And.right⟩
    · rw [if_neg (mt beq_iff_eq.1 hx), List.cons_append, List.cons.injEq]
      exact ⟨fun h => (nomatch h), fun h => absurd h.1.symm hx⟩

/-- The bytes end in front of their first delimiter. -/
structure CutAt (d bs front back : Bytes) : Prop where
  whole : bs = front ++ d ++ back
  first : ∀ front' back', bs = front' ++ d ++ back' → front.length ≤ front'.length

/-- Bytes are cut in one way. -/
theorem CutAt.unique {front' back' : Bytes} (h : CutAt d bs front back)
    (h' : CutAt d bs front' back') : front = front' ∧ back = back' := by
  have hlen : front.length = front'.length :=
    Nat.le_antisymm (h.first _ _ h'.whole) (h'.first _ _ h.whole)
  have hw : front ++ (d ++ back) = front' ++ (d ++ back') := by
    rw [← List.append_assoc, ← List.append_assoc, ← h.whole, ← h'.whole]
  obtain ⟨hf, hb⟩ := List.append_inj hw hlen
  exact ⟨hf, List.append_cancel_left hb⟩

/-- A cut behind a byte with which no delimiter starts. -/
theorem CutAt.cons {b : UInt8} (hb : after? d (b :: bs) = none) (h : CutAt d bs front back) :
    CutAt d (b :: bs) (b :: front) back := by
  refine ⟨by rw [h.whole]; rfl, fun front' back' hw => ?_⟩
  cases front' with
  | nil =>
    rw [List.nil_append] at hw
    rw [after?_eq_some_iff.2 hw] at hb
    cases hb
  | cons c front' => exact Nat.succ_le_succ (h.first front' back' (List.cons.inj hw).2)

theorem positionFrom?_eq_some_iff (hd : d ≠ []) : ∀ {n k : Nat} {bs : Bytes},
    positionFrom? d n bs = some k ↔ ∃ front back, CutAt d bs front back ∧ k = n + front.length
  | n, k, [] => by
    rw [positionFrom?, if_neg (by simpa using hd)]
    refine ⟨fun h => (nomatch h), fun ⟨front, back, h, _⟩ => ?_⟩
    have hw := h.whole
    simp [hd] at hw
  | n, k, b :: bs => by
    rw [positionFrom?]
    cases ha : after? d (b :: bs) with
    | some rest =>
      have hw : b :: bs = [] ++ d ++ rest := after?_eq_some_iff.1 ha
      have hcut : CutAt d (b :: bs) [] rest := ⟨hw, fun _ _ _ => Nat.zero_le _⟩
      rw [if_pos (Option.isSome_some)]
      constructor
      · intro h
        exact ⟨[], rest, hcut, (Option.some.inj h).symm⟩
      · rintro ⟨front, back, h, rfl⟩
        rw [← (hcut.unique h).1]
        rfl
    | none =>
      rw [if_neg (by simp), positionFrom?_eq_some_iff hd]
      constructor
      · rintro ⟨front, back, h, rfl⟩
        exact ⟨b :: front, back, h.cons ha, by rw [List.length_cons]; omega⟩
      · rintro ⟨front, back, h, rfl⟩
        cases front with
        | nil =>
          rw [after?_eq_some_iff.2 (show b :: bs = d ++ back from h.whole)] at ha
          cases ha
        | cons c front =>
          have hw : b :: bs = c :: (front ++ d ++ back) := h.whole
          obtain ⟨rfl, hbs⟩ := List.cons.inj hw
          refine ⟨front, back, ⟨hbs, fun front' back' hw' => ?_⟩, by rw [List.length_cons]; omega⟩
          exact Nat.le_of_succ_le_succ (h.first (b :: front') back' (by rw [hw']; rfl))

/-- **Splitting cuts at the first delimiter.** -/
theorem splitAt?_eq_some_iff (hd : d ≠ []) :
    splitAt? d bs = some (front, back) ↔ CutAt d bs front back := by
  unfold splitAt?
  rw [Option.map_eq_some_iff]
  have hparts : ∀ {front back : Bytes}, CutAt d bs front back →
      bs.take front.length = front ∧ bs.drop (front.length + d.length) = back := by
    intro front back h
    rw [h.whole]
    refine ⟨by simp, ?_⟩
    rw [← List.length_append]
    exact List.drop_left
  constructor
  · rintro ⟨k, hk, h⟩
    obtain ⟨front', back', hcut, rfl⟩ := (positionFrom?_eq_some_iff hd).1 hk
    obtain ⟨ht, hr⟩ := hparts hcut
    rw [Nat.zero_add, ht, hr] at h
    cases h
    exact hcut
  · intro hcut
    obtain ⟨ht, hr⟩ := hparts hcut
    exact ⟨0 + front.length, (positionFrom?_eq_some_iff hd).2 ⟨front, back, hcut, rfl⟩,
      by rw [Nat.zero_add, ht, hr]⟩

/-- Bytes that come later do not move a cut. -/
theorem CutAt.append (h : CutAt d bs front back) (more : Bytes) :
    CutAt d (bs ++ more) front (back ++ more) := by
  refine ⟨by rw [h.whole, List.append_assoc], fun front' back' hw => ?_⟩
  refine Nat.le_of_not_lt fun hlt => ?_
  have hlen : (front' ++ d).length ≤ bs.length := by
    rw [h.whole]
    simp only [List.length_append]
    omega
  have hpre : bs = front' ++ d ++ bs.drop (front' ++ d).length := by
    have ht : (bs ++ more).take (front' ++ d).length = front' ++ d := by
      rw [hw]
      exact List.take_left
    rw [List.take_append_of_le_length hlen] at ht
    have hsplit := List.take_append_drop (front' ++ d).length bs
    rw [ht] at hsplit
    exact hsplit.symm
  exact absurd (h.first front' _ hpre) (Nat.not_le.2 hlt)

theorem splitAt?_append (hd : d ≠ []) (h : splitAt? d bs = some (front, back)) (more : Bytes) :
    splitAt? d (bs ++ more) = some (front, back ++ more) := by
  rw [splitAt?_eq_some_iff hd] at h ⊢
  exact h.append more

end RevisionWatch.Bytes
