import RevisionWatch.Proofs.Text.Delimiter
import RevisionWatch.Proofs.Text.Order
/-!
# Lines as bytes

A line ends with a carriage return and a line feed. The bytes of a text that does not hold the two
side by side (`Unbroken`) are cut where the line ends (`cutAt_line`): no byte of another character
is one of the two, and a carriage return at the end of the text does not pair with the one behind
it. Of bytes that may be no text, too, a line is what holds no such pair (`cutAt_crlf_iff`). Lines
up to an empty one are cut in front of that (`cutAt_lines`).
-/

namespace RevisionWatch

/-! ## 1. Unbroken texts -/

/-- The text holds no carriage return with a line feed behind it. -/
def Text.Unbroken (cs : List Char) : Prop :=
  ¬ ['\r', '\n'] <:+: cs

instance (cs : List Char) : Decidable (Text.Unbroken cs) :=
  inferInstanceAs (Decidable (¬ _))

namespace Text

variable {c : Char} {cs ds : List Char}

theorem unbroken_cons :
    Unbroken (c :: cs) ↔ ¬ (c = '\r' ∧ cs.head? = some '\n') ∧ Unbroken cs := by
  have hprefix : ['\n'] <+: cs ↔ cs.head? = some '\n' := by
    cases cs with
    | nil => simp
    | cons d ds => simp [eq_comm]
  unfold Unbroken
  rw [List.infix_cons_iff, List.cons_prefix_cons, hprefix, not_or, eq_comm (a := '\r')]

/-- A text without carriage returns is unbroken. -/
theorem unbroken_of_not_mem (h : '\r' ∉ cs) : Unbroken cs := by
  rintro ⟨front, back, rfl⟩
  simp at h

/-- A text without carriage returns may be put in front. -/
theorem Unbroken.append_left (hc : '\r' ∉ cs) (h : Unbroken ds) : Unbroken (cs ++ ds) := by
  induction cs with
  | nil => exact h
  | cons c cs ih =>
    have hcr : c ≠ '\r' := fun heq => hc (heq ▸ List.mem_cons_self)
    rw [List.cons_append, unbroken_cons]
    exact ⟨fun hpair => hcr hpair.1, ih fun hmem => hc (List.mem_cons_of_mem _ hmem)⟩

end Text

namespace Bytes

open Text (Unbroken)

variable {bs line front back rest : Bytes} {cs : List Char}

/-! ## 2. One line -/

/-- A byte below 0x80 is all of its character. -/
theorem utf8EncodeChar_of_small {c : Char} {b : UInt8} (hb : b ∈ String.utf8EncodeChar c)
    (hsmall : b.toNat < 0x80) : String.utf8EncodeChar c = [b] ∧ c.toNat = b.toNat := by
  have hc : c.val.toNat ≤ 0x10FFFF := codePoint_le c
  have htoNat : c.toNat = c.val.toNat := rfl
  unfold String.utf8EncodeChar at hb ⊢
  rw [htoNat]
  generalize c.val.toNat = v at *
  dsimp only at hb ⊢
  split_ifs at hb ⊢ with h₁ h₂ h₃
  · obtain rfl := List.mem_singleton.1 hb
    have hv : (v.toUInt8).toNat = v := by
      simp [Nat.toUInt8, UInt8.toNat_ofNat']
      omega
    exact ⟨rfl, hv.symm⟩
  all_goals
    simp only [List.mem_cons, List.not_mem_nil, or_false] at hb
    rcases hb with rfl | rfl | rfl | rfl <;> simp [UInt8.toNat_ofNat'] at hsmall <;> omega

/-- The first byte of a text is a line feed if its first character is. -/
theorem head?_ofChars_lf (h : (ofChars cs).head? = some 0x0A) : cs.head? = some '\n' := by
  cases cs with
  | nil => cases h
  | cons c cs =>
    obtain ⟨b, bs, hbs⟩ := List.exists_cons_of_ne_nil (String.utf8EncodeChar_ne_nil (c := c))
    rw [ofChars, List.flatMap_cons, hbs] at h
    obtain rfl : b = 0x0A := Option.some.inj h
    have hmem : (0x0A : UInt8) ∈ String.utf8EncodeChar c := hbs ▸ List.mem_cons_self
    have hc : c.toNat = 10 := (utf8EncodeChar_of_small hmem (by decide)).2
    have hlf : c = '\n' := by rw [← Char.ofNat_toNat c, hc]
    rw [hlf]
    rfl

theorem after?_crlf_of_ne {b : UInt8} (hb : b ≠ 0x0D) (bs : Bytes) :
    after? crlf (b :: bs) = none := by
  rw [Option.eq_none_iff_forall_ne_some]
  intro rest h
  have hw : b :: bs = crlf ++ rest := after?_eq_some_iff.1 h
  exact hb (List.cons.inj hw).1

/-- Bytes other than a carriage return may be put in front of a cut. -/
theorem CutAt.append_left (hline : 0x0D ∉ line) (h : CutAt crlf bs front back) :
    CutAt crlf (line ++ bs) (line ++ front) back := by
  induction line with
  | nil => exact h
  | cons b line ih =>
    have hb : b ≠ 0x0D := fun heq => hline (heq ▸ List.mem_cons_self)
    exact (ih fun hmem => hline (List.mem_cons_of_mem _ hmem)).cons (after?_crlf_of_ne hb _)

/-- **An unbroken text is cut at its end.** The induction is on its characters: a carriage return is
    followed by another character than a line feed, or by the carriage return that ends the
    line. -/
theorem cutAt_line (h : Unbroken cs) (back : Bytes) :
    CutAt crlf (ofChars cs ++ crlf ++ back) (ofChars cs) back := by
  induction cs with
  | nil => exact ⟨rfl, fun _ _ _ => Nat.zero_le _⟩
  | cons c cs ih =>
    obtain ⟨hpair, hcs⟩ := Text.unbroken_cons.1 h
    have hcut := ih hcs
    have hbytes : ofChars (c :: cs) = String.utf8EncodeChar c ++ ofChars cs := rfl
    rw [hbytes, List.append_assoc, List.append_assoc, ← List.append_assoc (ofChars cs)]
    by_cases hc : c = '\r'
    · subst hc
      have hnone : after? crlf (0x0D :: (ofChars cs ++ crlf ++ back)) = none := by
        rw [Option.eq_none_iff_forall_ne_some]
        intro rest hafter
        have hw : 0x0D :: (ofChars cs ++ crlf ++ back) = 0x0D :: 0x0A :: rest :=
          after?_eq_some_iff.1 hafter
        have hlf : (ofChars cs ++ crlf ++ back).head? = some 0x0A := by
          rw [(List.cons.inj hw).2]
          rfl
        cases hfirst : ofChars cs with
        | nil =>
          rw [hfirst] at hlf
          exact absurd (Option.some.inj hlf) (by decide)
        | cons b bs =>
          rw [hfirst] at hlf
          refine hpair ⟨rfl, head?_ofChars_lf ?_⟩
          rw [hfirst]
          exact hlf
      exact hcut.cons hnone
    · refine hcut.append_left fun hmem => hc ?_
      have hnat : c.toNat = 13 := (utf8EncodeChar_of_small hmem (by decide)).2
      rw [← Char.ofNat_toNat c, hnat]

/-- **A line ends at the first pair of carriage return and line feed**, so it is what has none in
    it: a pair cannot begin in the line and end behind it. -/
theorem cutAt_crlf_iff :
    CutAt crlf bs line back ↔ bs = line ++ crlf ++ back ∧ ¬ crlf <:+: line := by
  constructor
  · intro h
    refine ⟨h.whole, ?_⟩
    rintro ⟨front, more, rfl⟩
    have hle := h.first front (more ++ crlf ++ back) (by rw [h.whole]; simp)
    simp only [List.length_append, crlf, List.length_cons] at hle
    omega
  · rintro ⟨rfl, hline⟩
    refine ⟨rfl, fun front' back' hw => Nat.le_of_not_lt fun hlt => ?_⟩
    rw [List.append_assoc, List.append_assoc] at hw
    obtain ⟨more, rfl⟩ : ∃ more, line = front' ++ more := by
      rcases List.append_eq_append_iff.1 hw with ⟨more, hmore, -⟩ | ⟨more, hmore, -⟩
      · rw [hmore, List.length_append] at hlt
        omega
      · exact ⟨more, hmore⟩
    rw [List.append_assoc] at hw
    have hw := List.append_cancel_left hw
    -- the pair begins at the last byte of the line or further in front
    match more, hw with
    | [], _ => simp at hlt
    | [x], hw => exact absurd (List.cons.inj (List.cons.inj hw).2).1 (by decide)
    | x :: y :: more, hw =>
      obtain ⟨hx, htail⟩ := List.cons.inj hw
      have hy : y = 0x0A := (List.cons.inj htail).1
      exact hline ⟨front', more, by rw [hx, hy]; simp [crlf]⟩

/-! ## 3. Several lines -/

/-- A line in front of an empty one is cut off by the two ends. -/
theorem CutAt.empty_line (h : CutAt crlf bs line (crlf ++ rest)) :
    CutAt (crlf ++ crlf) bs line rest := by
  refine ⟨by rw [h.whole]; simp, fun front' back' hw => ?_⟩
  refine h.first front' (crlf ++ back') ?_
  rw [hw]
  simp

/-- A line in front of one that is not empty does not end the lines. -/
theorem CutAt.full_line (h : CutAt crlf bs line back) (hback : ∀ more, back ≠ crlf ++ more)
    (h' : CutAt (crlf ++ crlf) back front rest) :
    CutAt (crlf ++ crlf) bs (line ++ crlf ++ front) rest := by
  refine ⟨by rw [h.whole, h'.whole]; simp, fun front' back' hw => ?_⟩
  have hle : line.length ≤ front'.length := by
    refine h.first front' (crlf ++ back') ?_
    rw [hw]
    simp
  have hsplit : line ++ (crlf ++ back) = front' ++ (crlf ++ crlf ++ back') := by
    rw [← List.append_assoc, ← List.append_assoc front', ← h.whole, hw]
  obtain ⟨more, rfl⟩ : ∃ more, front' = line ++ more := by
    rcases List.append_eq_append_iff.1 hsplit with ⟨more, hmore, -⟩ | ⟨more, hmore, -⟩
    · exact ⟨more, hmore⟩
    · have hnil : more = [] := by
        rw [hmore, List.length_append] at hle
        exact List.eq_nil_of_length_eq_zero (by omega)
      exact ⟨[], by rw [hmore, hnil]; simp⟩
  rw [List.append_assoc] at hsplit
  have hsplit := List.append_cancel_left hsplit
  -- the two ends that were found begin at the end of the line, within it, or behind it
  match more, hsplit with
  | [], hsplit =>
    rw [List.nil_append, List.append_assoc] at hsplit
    exact absurd (List.append_cancel_left hsplit) (hback _)
  | [x], hsplit => exact absurd (List.cons.inj (List.cons.inj hsplit).2).1 (by decide)
  | x :: y :: more, hsplit =>
    have hback' : back = more ++ (crlf ++ crlf ++ back') :=
      (List.cons.inj (List.cons.inj hsplit).2).2
    have hfirst := h'.first more back' (by rw [List.append_assoc]; exact hback')
    simp only [List.length_append, List.length_cons]
    simp only [crlf, List.length_cons, List.length_nil]
    omega

/-- A text as a line. -/
def ofLine (s : String) : Bytes :=
  ofText s ++ crlf

/-- The text of several lines, the end of the last left out. -/
def joinLines : String → List String → String
  | line, [] => line
  | line, next :: lines => line ++ "\r\n" ++ joinLines next lines

/-- A text in front of the first line is in front of them all. -/
theorem joinLines_append (s line : String) (lines : List String) :
    joinLines (s ++ line) lines = s ++ joinLines line lines := by
  cases lines with
  | nil => rfl
  | cons next lines => simp only [joinLines, String.append_assoc]

/-- **Every text is lines that are joined.** The recursion is on its characters: a carriage return
    and a line feed end a line, any other character is put in front of the first. -/
theorem exists_joinLines (cs : List Char) : ∃ line lines,
    String.ofList cs = joinLines line lines ∧ ∀ l ∈ line :: lines, Unbroken l.toList := by
  match cs with
  | [] =>
    refine ⟨"", [], rfl, fun l hl => ?_⟩
    rw [List.mem_singleton.1 hl]
    exact Text.unbroken_of_not_mem List.not_mem_nil
  | c :: cs =>
    by_cases hpair : c = '\r' ∧ cs.head? = some '\n'
    · obtain ⟨rfl, hlf⟩ := hpair
      obtain ⟨more, rfl⟩ := List.head?_eq_some_iff.1 hlf
      obtain ⟨line, lines, hjoin, hunbroken⟩ := exists_joinLines more
      refine ⟨"", line :: lines, ?_, List.forall_mem_cons.2
        ⟨Text.unbroken_of_not_mem List.not_mem_nil, hunbroken⟩⟩
      rw [joinLines, ← hjoin, ← String.toList_inj]
      simp
    · obtain ⟨line, lines, hjoin, hunbroken⟩ := exists_joinLines cs
      obtain ⟨hline, hlines⟩ := List.forall_mem_cons.1 hunbroken
      refine ⟨String.singleton c ++ line, lines, ?_, List.forall_mem_cons.2 ⟨?_, hlines⟩⟩
      · rw [joinLines_append, ← hjoin, ← String.toList_inj]
        simp
      · have hcs : cs = line.toList ++ (joinLines "" lines).toList := by
          rw [← String.toList_append, ← joinLines_append, String.append_empty, ← hjoin,
            String.toList_ofList]
        rw [String.toList_append, String.toList_singleton, List.singleton_append]
        refine Text.unbroken_cons.2 ⟨fun ⟨hcr, hlf⟩ => hpair ⟨hcr, ?_⟩, hline⟩
        rw [hcs, List.head?_append, hlf]
        rfl
termination_by cs.length

/-- **Lines are cut at the first empty one.** -/
theorem cutAt_lines (rest : Bytes) : ∀ (lines : List String) (line : String),
    Unbroken line.toList → (∀ l ∈ lines, Unbroken l.toList ∧ l ≠ "") →
      CutAt (crlf ++ crlf) (ofLine line ++ lines.flatMap ofLine ++ crlf ++ rest)
        (ofText (joinLines line lines)) rest
  | [], line, hline, _ => by
    have hcut := cutAt_line hline (crlf ++ rest)
    rw [← ofText_eq_ofChars] at hcut
    have hwhole : ofLine line ++ ([] : List String).flatMap ofLine ++ crlf ++ rest =
        ofText line ++ crlf ++ (crlf ++ rest) := by simp [ofLine]
    rw [hwhole]
    exact hcut.empty_line
  | next :: lines, line, hline, hlines => by
    obtain ⟨hnext, hsome⟩ := hlines next List.mem_cons_self
    have hrest := cutAt_lines rest lines next hnext fun l hl =>
      hlines l (List.mem_cons_of_mem _ hl)
    set back : Bytes := ofLine next ++ lines.flatMap ofLine ++ crlf ++ rest with hback
    have hcut := cutAt_line hline back
    have hfront := cutAt_line hnext (lines.flatMap ofLine ++ crlf ++ rest)
    rw [← ofText_eq_ofChars] at hcut hfront
    have hnonempty : ∀ more, back ≠ crlf ++ more := by
      intro more hmore
      have hlen := hfront.first [] more (by
        rw [List.nil_append, ← hmore, hback]
        simp [ofLine])
      have hnil : ofText next = ofText "" := List.eq_nil_of_length_eq_zero (Nat.le_zero.1 hlen)
      exact hsome (ofText_injective hnil)
    have hwhole : ofLine line ++ (next :: lines).flatMap ofLine ++ crlf ++ rest =
        ofText line ++ crlf ++ back := by
      simp [hback, ofLine]
    have htext : ofText (joinLines line (next :: lines)) =
        ofText line ++ crlf ++ ofText (joinLines next lines) := by
      rw [joinLines, ofText_eq_ofChars, ofText_eq_ofChars, ofText_eq_ofChars]
      simp only [String.toList_append, ofChars, List.flatMap_append]
      rfl
    rw [hwhole, htext]
    exact hcut.full_line hnonempty hrest

end Bytes

end RevisionWatch
