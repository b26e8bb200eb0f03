import Mathlib.Data.List.TakeWhile
import RevisionWatch.Text.Blank
/-!
# Trimming

What is left of a text when the blanks around it are dropped: the text is that with blanks on both
sides (`exists_around_trimChars`), and what has no blank at its ends is left of every text that has
it between blanks (`trimChars_around`). So more blanks around a text change nothing
(`trimChars_pad`), and a text may be trimmed before or after its letters are made small
(`map_lowerChar_trimChars`).
-/

namespace RevisionWatch.Text

variable {before core after cs : List Char}

/-- Blanks in front of a text are dropped, and nothing of the text. -/
theorem dropWhile_isBlank_append (hbefore : ∀ c ∈ before, isBlank c = true)
    (hfirst : ∀ c ∈ cs.head?, isBlank c = false) : (before ++ cs).dropWhile isBlank = cs := by
  rw [List.dropWhile_append_of_pos hbefore]
  cases cs with
  | nil => rfl
  | cons c cs => rw [List.dropWhile_cons_of_neg (by simp [hfirst c rfl])]

/-- **Blanks around a text do not count.** -/
theorem trimChars_around (hbefore : ∀ c ∈ before, isBlank c = true)
    (hafter : ∀ c ∈ after, isBlank c = true) (hfirst : ∀ c ∈ core.head?, isBlank c = false)
    (hlast : ∀ c ∈ core.getLast?, isBlank c = false) :
    trimChars (before ++ core ++ after) = core := by
  have hback : (core ++ after).reverse.dropWhile isBlank = core.reverse := by
    rw [List.reverse_append]
    refine dropWhile_isBlank_append (fun c hc => hafter c (List.mem_reverse.1 hc)) fun c hc => ?_
    rw [List.head?_reverse] at hc
    exact hlast c hc
  unfold trimChars
  rw [List.append_assoc]
  cases core with
  | nil =>
    have hall : ∀ c ∈ before ++ after, isBlank c = true := fun c hc =>
      (List.mem_append.1 hc).elim (hbefore c) (hafter c)
    rw [List.nil_append, List.dropWhile_eq_nil_iff.2 hall]
    rfl
  | cons c core =>
    have hfront : ∀ d ∈ (c :: core ++ after).head?, isBlank d = false := hfirst
    rw [dropWhile_isBlank_append hbefore hfront, hback, List.reverse_reverse]

/-- A text is what is left of it, with blanks around. -/
theorem exists_around_trimChars (cs : List Char) :
    ∃ before after, cs = before ++ trimChars cs ++ after ∧ (∀ c ∈ before, isBlank c = true) ∧
      ∀ c ∈ after, isBlank c = true := by
  have htake {cs : List Char} : ∀ c ∈ cs.takeWhile isBlank, isBlank c = true := fun c hc =>
    List.mem_takeWhile_imp hc
  have hback : cs.dropWhile isBlank =
      trimChars cs ++ ((cs.dropWhile isBlank).reverse.takeWhile isBlank).reverse := by
    rw [trimChars, ← List.reverse_append, List.takeWhile_append_dropWhile, List.reverse_reverse]
  refine ⟨cs.takeWhile isBlank, ((cs.dropWhile isBlank).reverse.takeWhile isBlank).reverse, ?_,
    htake, fun c hc => htake c (List.mem_reverse.1 hc)⟩
  rw [List.append_assoc, ← hback, List.takeWhile_append_dropWhile]

/-- What is left has no blank in front. -/
theorem head?_trimChars : ∀ c ∈ (trimChars cs).head?, isBlank c = false := by
  intro c hc
  have hprefix : trimChars cs <+: cs.dropWhile isBlank := by
    rw [trimChars, ← List.reverse_suffix, List.reverse_reverse]
    exact List.dropWhile_suffix _
  obtain ⟨back, hback⟩ := hprefix
  have hnot := List.head?_dropWhile_not isBlank cs
  rw [← hback, List.head?_append, Option.mem_def.1 hc] at hnot
  exact hnot

/-- What is left has no blank behind. -/
theorem getLast?_trimChars : ∀ c ∈ (trimChars cs).getLast?, isBlank c = false := by
  intro c hc
  rw [trimChars, List.getLast?_reverse] at hc
  have hnot := List.head?_dropWhile_not isBlank (cs.dropWhile isBlank).reverse
  rw [Option.mem_def.1 hc] at hnot
  exact hnot

/-- **More blanks around a text do not count.** -/
theorem trimChars_pad (hbefore : ∀ c ∈ before, isBlank c = true)
    (hafter : ∀ c ∈ after, isBlank c = true) : trimChars (before ++ cs ++ after) = trimChars cs := by
  obtain ⟨front, back, hcs, hfront, hback⟩ := exists_around_trimChars cs
  have hwhole : before ++ cs ++ after = before ++ front ++ trimChars cs ++ (back ++ after) :=
    calc before ++ cs ++ after
      _ = before ++ (front ++ trimChars cs ++ back) ++ after := by rw [← hcs]
      _ = before ++ front ++ trimChars cs ++ (back ++ after) := by simp only [List.append_assoc]
  rw [hwhole]
  exact trimChars_around
    (fun c hc => (List.mem_append.1 hc).elim (hbefore c) (hfront c))
    (fun c hc => (List.mem_append.1 hc).elim (hback c) (hafter c))
    head?_trimChars getLast?_trimChars

/-- A text of which nothing is left is of blanks. -/
theorem trim_eq_empty {s : String} (h : trim s = "") : ∀ c ∈ s.toList, isBlank c = true := by
  have hnil : trimChars s.toList = [] := String.ofList_injective h
  obtain ⟨before, after, hs, hbefore, hafter⟩ := exists_around_trimChars s.toList
  rw [hnil, List.append_nil] at hs
  intro c hc
  rw [hs] at hc
  exact (List.mem_append.1 hc).elim (hbefore c) (hafter c)

/-! ## Small letters -/

/-- A capital is made a letter that stands 32 places behind it. -/
theorem lowerChar_cases (c : Char) : lowerChar c = c ∨
    65 ≤ c.toNat ∧ c.toNat ≤ 90 ∧ (lowerChar c).toNat = c.toNat + 32 := by
  have hall : ∀ n < 91, 65 ≤ n → (lowerChar (Char.ofNat n)).toNat = n + 32 := by decide
  by_cases hc : 'A' ≤ c ∧ c ≤ 'Z'
  · have hlow : 65 ≤ c.toNat := hc.1
    have hhigh : c.toNat ≤ 90 := hc.2
    have hsmall := hall c.toNat (Nat.lt_succ_of_le hhigh) hlow
    rw [Char.ofNat_toNat] at hsmall
    exact .inr ⟨hlow, hhigh, hsmall⟩
  · exact .inl (if_neg (by simpa using hc))

/-- A letter and no blank are what a capital is made, and what it was. -/
theorem isBlank_lowerChar (c : Char) : isBlank (lowerChar c) = isBlank c := by
  rcases lowerChar_cases c with h | ⟨hlow, hhigh, h⟩
  · rw [h]
  · unfold isBlank
    rw [h]
    generalize c.toNat = n at hlow hhigh
    rw [Bool.eq_iff_iff]
    simp only [Bool.or_eq_true, Bool.and_eq_true, decide_eq_true_eq, beq_iff_eq]
    omega

/-- A character that is no letter is made of itself alone. -/
theorem lowerChar_eq_iff {c d : Char} (hd : d.toNat < 65) : lowerChar c = d ↔ c = d := by
  rcases lowerChar_cases c with h | ⟨hlow, hhigh, h⟩
  · rw [h]
  · constructor
    · rintro rfl
      omega
    · rintro rfl
      omega

/-- **Trimming and making letters small may change places.** -/
theorem map_lowerChar_trimChars (cs : List Char) :
    (trimChars cs).map lowerChar = trimChars (cs.map lowerChar) := by
  have hsame : isBlank ∘ lowerChar = isBlank := funext isBlank_lowerChar
  unfold trimChars
  rw [List.dropWhile_map, hsame, ← List.map_reverse, List.dropWhile_map, hsame, List.map_reverse]

end RevisionWatch.Text
