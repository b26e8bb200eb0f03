import RevisionWatch.Proofs.Decimal.Digits
import RevisionWatch.Revision
/-!
# Texts of revisions

Which texts are read as revisions, said without the reader (`Revision.parse?_eq_some_iff`). The
decimal text of a revision behind any marker is one of them (`Revision.spelled_text`), and revisions
that are read are in the order of the numbers that were spelled (`Revision.compare_of_spelled`).
-/

namespace RevisionWatch.Revision

variable {raw : String} {n : Nat} {r : Revision}

/-- The text is one character, of whatever kind, and behind it one or more of the ten digits, whose
    row has the value. -/
def Spelled (raw : String) (n : Nat) : Prop :=
  ∃ marker digits, raw.toList = marker :: digits ∧ digits ≠ [] ∧
    (∀ c ∈ digits, c.isDigit = true) ∧ n = Nat.ofDigitChars 10 digits 0

/-- A text has one value. -/
theorem Spelled.unique {n' : Nat} (h : Spelled raw n) (h' : Spelled raw n') : n = n' := by
  obtain ⟨marker, digits, hraw, -, -, rfl⟩ := h
  obtain ⟨marker', digits', hraw', -, -, rfl⟩ := h'
  rw [hraw] at hraw'
  rw [(List.cons.inj hraw').2]

theorem ofNat?_eq_some_iff : ofNat? n = some r ↔ r.number = n := by
  unfold ofNat?
  constructor
  · intro h
    split at h
    · rw [← Option.some.inj h]
    · cases h
  · rintro rfl
    rw [dif_pos r.fits]

/-- **The revision that is read is the one that is spelled.** -/
theorem parse?_eq_some_iff : parse? raw = some r ↔ Spelled raw r.number := by
  unfold parse? Spelled
  cases raw.toList with
  | nil => exact ⟨fun h => (nomatch h), fun ⟨_, _, h, _⟩ => (nomatch h)⟩
  | cons marker digits =>
    dsimp only
    rw [Option.bind_eq_some_iff]
    constructor
    · rintro ⟨n, hn, hfit⟩
      rw [ofNat?_eq_some_iff.1 hfit]
      exact ⟨marker, digits, rfl, Decimal.value?_ten.1 hn⟩
    · rintro ⟨marker', digits', heq, hdigits⟩
      obtain ⟨rfl, rfl⟩ := List.cons.inj heq
      exact ⟨r.number, Decimal.value?_ten.2 hdigits, ofNat?_eq_some_iff.2 rfl⟩

/-- The decimal text of a revision spells it behind every marker. -/
theorem spelled_text (marker : Char) (r : Revision) :
    Spelled (String.singleton marker ++ r.text) r.number := by
  obtain ⟨nonempty, digits, value⟩ := Decimal.value?_ten.1 (Decimal.value?_text r.number)
  refine ⟨marker, (Decimal.text r.number).toList, ?_, nonempty, digits, value⟩
  rw [String.toList_append, String.toList_singleton]
  rfl

/-- **Revisions are in the order of what they were read from**, however many digits that had. -/
theorem compare_of_spelled {raw' : String} {r' : Revision} {n n' : Nat}
    (h : parse? raw = some r) (h' : parse? raw' = some r') (hn : Spelled raw n)
    (hn' : Spelled raw' n') :
    compare r r' = compare n n' ∧ (r < r' ↔ n < n') ∧ (r = r' ↔ n = n') := by
  obtain rfl := (parse?_eq_some_iff.1 h).unique hn
  obtain rfl := (parse?_eq_some_iff.1 h').unique hn'
  exact ⟨rfl, Iff.rfl, fun heq => congrArg number heq, ext_number⟩

/-- The next revision is one more, and the last has none but itself. -/
theorem next_eq_iff {r' : Revision} :
    r.next = r' ↔ r'.number = r.number + 1 ∨ r = last ∧ r' = last := by
  have hword : last.number + 1 = Decimal.word64 := rfl
  have hfits := r.fits
  have hfits' := r'.fits
  constructor
  · rintro rfl
    rw [next_number]
    split
    · exact .inl rfl
    · rename_i hlast
      have hr : r = last := ext_number (by omega)
      subst hr
      exact .inr ⟨rfl, ext_number (by rw [next_number, if_neg hlast])⟩
  · rintro (hnext | ⟨rfl, rfl⟩)
    · refine ext_number ?_
      rw [next_number, if_pos (by omega), hnext]
    · exact ext_number (by rw [next_number, if_neg (by omega)])

/-- A text is read if the number it spells fits its word. -/
theorem exists_parse?_iff :
    (∃ r, parse? raw = some r) ↔ ∃ n < Decimal.word64, Spelled raw n := by
  constructor
  · rintro ⟨r, hr⟩
    exact ⟨r.number, r.fits, parse?_eq_some_iff.1 hr⟩
  · rintro ⟨n, hn, hspelled⟩
    exact ⟨⟨n, hn⟩, parse?_eq_some_iff.2 hspelled⟩

end RevisionWatch.Revision
