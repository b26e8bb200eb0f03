import RevisionWatch.Proofs.Yaml.Literal
import RevisionWatch.Proofs.Yaml.Plain
import RevisionWatch.Proofs.Yaml.Quoted
/-!
# A style that holds the text

How a text can be laid out in each style (`Laid`), and that the style which is chosen for a text can
hold it (`laid_writeText`). A style is chosen by what a text holds, and what that says of the text is
listed once (`Chosen`). What else stands as a key or as the value of a member is a word, and laid out
plainly (`laid_word`).
-/

namespace RevisionWatch.Yaml

variable {cs w : List Char} {style : Style}

/-! ## 1. Layouts -/

/-- **A text as it is laid out in a style**, with the end of its line. -/
inductive Laid : Style → List Char → List Char → Prop where
  | plain {cs : List Char} (hcs : Bare cs) (hsolid : Solid isOpen cs)
      (hmark : startsAsMark cs = false) (hhyphen : cs.head? ≠ some '-') :
      Laid .plain cs (cs ++ ['\n'])
  | single {cs : List Char} (hcs : Singly cs) :
      Laid .singleQuoted cs ('\'' :: (singleBody false cs ++ ['\'', '\n']))
  | double (cs : List Char) : Laid .doubleQuoted cs ('"' :: (cs.flatMap doubleChar ++ ['"', '\n']))
  | literal {cs : List Char} (hne : cs ≠ []) (hcs : ∀ ch ∈ cs, isPrintable ch = true) :
      Laid .literal cs ('|' :: literal cs)

theorem Laid.ne_nil (h : Laid style cs w) : w ≠ [] := by
  cases h <;> simp

/-! ## 2. The style of a text -/

theorem isOdd_eq_false : isOdd cs = false ↔
    hasPair (· == ' ') isBreak cs = false ∧ ∀ ch ∈ cs, isPrintable ch = true := by
  simp [isOdd]

/-- **What a style is chosen for**: double quotes for any text, single quotes for what they can hold,
    lines of its own for a text that has some, and no quotes for a text that can do without. -/
inductive Chosen (s : String) : Style → Prop where
  | double : Chosen s .doubleQuoted
  | single (hcs : Singly s.toList) : Chosen s .singleQuoted
  | literal (hne : s.toList ≠ []) (hcs : ∀ ch ∈ s.toList, isPrintable ch = true) :
      Chosen s .literal
  | plain (hfree : isAmbiguous s = false) (hpadded : isPadded s.toList = false)
      (hodd : isOdd s.toList = false) (hbreak : s.toList.any isBreak = false)
      (hmark : holdsMark s.toList = false) : Chosen s .plain

theorem chosen_styleOf (s : String) : Chosen s (styleOf s) := by
  have hquotes (hfeed : '\n' ∉ s.toList) : Chosen s
      (if hasPair isBreak (· == ' ') s.toList || isOdd s.toList then .doubleQuoted
        else .singleQuoted) := by
    split
    · exact .double
    · rename_i hfree
      obtain ⟨hbehind, hodd⟩ := Bool.or_eq_false_iff.1 (Bool.eq_false_iff.2 hfree)
      obtain ⟨hbefore, hprint⟩ := isOdd_eq_false.1 hodd
      exact .single ⟨hprint, hfeed, hbehind, hbefore⟩
  unfold styleOf
  dsimp only
  split
  · rename_i hfeed
    split
    · exact .double
    · rename_i hfree
      have hodd : isOdd s.toList = false := (Bool.or_eq_false_iff.1 (Bool.eq_false_iff.2 hfree)).2
      refine .literal (fun hnil => ?_) (isOdd_eq_false.1 hodd).2
      rw [hnil] at hfeed
      cases hfeed
  · rename_i hfeed
    have hfeed : '\n' ∉ s.toList := by simpa using hfeed
    split
    · exact hquotes hfeed
    · rename_i hfree
      split
      · exact hquotes hfeed
      · rename_i hmarks
        simp only [Bool.or_eq_true, not_or, Bool.not_eq_true] at hmarks
        obtain ⟨⟨⟨hpadded, hodd⟩, hbreak⟩, hmark⟩ := hmarks
        exact .plain (Bool.eq_false_iff.2 hfree) hpadded hodd hbreak hmark

/-- A text with nothing in it that could be a mark. -/
theorem laid_plain (hne : cs ≠ []) (hhyphen : cs.head? ≠ some '-') (hpadded : isPadded cs = false)
    (hodd : isOdd cs = false) (hbreak : cs.any isBreak = false) (hmark : holdsMark cs = false) :
    Laid .plain cs (cs ++ ['\n']) := by
  have hprint : ∀ ch ∈ cs, isPrintable ch = true := (isOdd_eq_false.1 hodd).2
  have hunbroken : ∀ ch ∈ cs, isBreak ch = false := by simpa using hbreak
  obtain ⟨hmark, hhash⟩ := Bool.or_eq_false_iff.1 hmark
  obtain ⟨hstart, hkey⟩ := Bool.or_eq_false_iff.1 hmark
  have hedge {ch : Char} (hmem : ch ∈ cs) (hedge : (ch == ' ' || isBreak ch) = false) :
      isOpen ch = false := by
    refine isOpen_eq_false.2 ⟨Bool.eq_false_iff.2 fun hgap => ?_, hunbroken ch hmem⟩
    rw [eq_space_of_isGap (hprint ch hmem) hgap] at hedge
    cases hedge
  obtain ⟨hhead, hlast⟩ := Bool.or_eq_false_iff.1 hpadded
  refine .plain ⟨hprint, hunbroken, hkey, hhash⟩ ⟨hne, fun ch hch => ?_, fun ch hch => ?_⟩ hstart
    hhyphen
  · rw [hch, Option.any_some] at hhead
    exact hedge (List.mem_of_mem_head? hch) hhead
  · rw [hch, Option.any_some] at hlast
    exact hedge (List.mem_of_getLast? hch) hlast

/-- **The style that is chosen for a text can hold it.** -/
theorem laid_writeText (s : String) : Laid (styleOf s) s.toList (writeText s) := by
  have hchosen := chosen_styleOf s
  unfold writeText
  generalize styleOf s = style at hchosen ⊢
  cases hchosen with
  | double => exact .double s.toList
  | single hcs => exact .single hcs
  | literal hne hcs => exact .literal hne hcs
  | plain hfree hpadded hodd hbreak hmark =>
    unfold isAmbiguous at hfree
    cases hcs : s.toList with
    | nil =>
      rw [hcs] at hfree
      cases hfree
    | cons ch cs =>
      rw [hcs] at hfree hpadded hodd hbreak hmark
      refine laid_plain (List.cons_ne_nil ch cs) ?_ hpadded hodd hbreak hmark
      intro hhyphen
      cases hhyphen
      cases hfree

/-! ## 3. Other values -/

/-- What no character of a name is. -/
theorem of_isWord {ch : Char} (h : isWord ch = true) :
    isPrintable ch = true ∧ isOpen ch = false ∧
      "#,[]\x7b\x7d&*!|>'\"%@\x60".toList.contains ch = false := by
  have hall : ∀ n < 128, isWord (Char.ofNat n) = true →
      isPrintable (Char.ofNat n) = true ∧ isOpen (Char.ofNat n) = false ∧
        "#,[]\x7b\x7d&*!|>'\"%@\x60".toList.contains (Char.ofNat n) = false := by
    decide
  have hlt : ch.toNat < 128 := by
    have hclass : (ch.isUpper || ch.isLower || ch.isDigit || ch == '_' || ch == '-') = true := h
    simp only [Bool.or_eq_true, beq_iff_eq] at hclass
    rcases hclass with (((hupper | hlower) | hdigit) | rfl) | rfl
    · have hle : ch.toNat ≤ 90 := (of_decide_eq_true hupper).2
      exact Nat.lt_of_le_of_lt hle (by decide)
    · have hle : ch.toNat ≤ 122 := of_decide_eq_true (Bool.and_eq_true_iff.1 hlower).2
      exact Nat.lt_of_le_of_lt hle (by decide)
    · have hle : ch.toNat ≤ 57 := of_decide_eq_true (Bool.and_eq_true_iff.1 hdigit).2
      exact Nat.lt_of_le_of_lt hle (by decide)
    · decide
    · decide
  have hcase := hall ch.toNat hlt
  rw [Char.ofNat_toNat] at hcase
  exact hcase h

theorem ne_of_isWord {ch : Char} (h : isWord ch = true) {x : Char}
    (hx : isWord x = false) : ch ≠ x := by
  rintro rfl
  rw [h] at hx
  cases hx

/-- **A name is laid out plainly.** -/
theorem laid_word (hne : cs ≠ []) (hcs : ∀ ch ∈ cs, isWord ch = true)
    (hhyphen : cs.head? ≠ some '-') : Laid .plain cs (cs ++ ['\n']) := by
  have hopen : ∀ ch ∈ cs, isOpen ch = false := fun ch hch => (of_isWord (hcs ch hch)).2.1
  have hkey : hasKeyMark cs = false := by
    refine hasKeyMark_eq_false.2 fun front back heq => ?_
    exact absurd rfl (ne_of_isWord (hcs ':' (by simp [heq])) (by decide))
  have hhash : hasPair isOpen (· == '#') cs = false := by
    refine hasPair_eq_false.2 fun front a b back heq ha => ?_
    rw [hopen a (by simp [heq])] at ha
    cases ha
  have hmark : startsAsMark cs = false := by
    cases cs with
    | nil => rfl
    | cons ch cs =>
      have hch : isWord ch = true := hcs ch List.mem_cons_self
      have hne' : ch ≠ '-' := fun heq => hhyphen (congrArg some heq)
      have hdot : ch ≠ '.' := ne_of_isWord hch (by decide)
      have hquery : ch ≠ '?' := ne_of_isWord hch (by decide)
      rw [startsAsMark, (of_isWord hch).2.2]
      simp [List.isPrefixOf, hne'.symm, hdot.symm, hquery, hne']
  refine .plain ⟨fun ch hch => (of_isWord (hcs ch hch)).1,
    fun ch hch => (isOpen_eq_false.1 (hopen ch hch)).2, hkey, hhash⟩
    ⟨hne, fun ch hch => hopen ch (List.mem_of_mem_head? hch),
      fun ch hch => hopen ch (List.mem_of_getLast? hch)⟩ hmark hhyphen

/-! ## 4. Characters -/

theorem printable_indent (broken : Bool) :
    ∀ ch ∈ (if broken then textIndent else []), isPrintable ch = true := by
  cases broken <;> exact List.all_eq_true.1 (by decide)

theorem printable_singleBody (hcs : ∀ ch ∈ cs, isPrintable ch = true) (broken : Bool) :
    ∀ ch ∈ singleBody broken cs, isPrintable ch = true := by
  induction cs generalizing broken with
  | nil => exact printable_indent broken
  | cons x cs ih =>
    obtain ⟨hx, hcs⟩ := List.forall_mem_cons.1 hcs
    have hquote : ∀ ch ∈ (if x == '\'' then ['\'', '\''] else [x]), isPrintable ch = true := by
      split
      · exact List.all_eq_true.1 (by decide)
      · exact List.forall_mem_singleton.2 hx
    rw [singleBody]
    split
    · exact List.forall_mem_cons.2 ⟨hx, ih hcs true⟩
    · exact List.forall_mem_append.2
        ⟨List.forall_mem_append.2 ⟨printable_indent broken, hquote⟩, ih hcs false⟩

theorem printable_literalBody (hcs : ∀ ch ∈ cs, isPrintable ch = true) (broken : Bool) :
    ∀ ch ∈ literalBody broken cs, isPrintable ch = true := by
  induction cs generalizing broken with
  | nil => exact fun ch hch => nomatch hch
  | cons x cs ih =>
    obtain ⟨hx, hcs⟩ := List.forall_mem_cons.1 hcs
    rw [literalBody]
    split
    · exact List.forall_mem_cons.2 ⟨hx, ih hcs true⟩
    · exact List.forall_mem_append.2
        ⟨printable_indent broken, List.forall_mem_cons.2 ⟨hx, ih hcs false⟩⟩

theorem printable_capitalHex (width n : Nat) :
    ∀ ch ∈ capitalHex width n, isPrintable ch = true := by
  have hall : ∀ d < 16, isPrintable (Nat.digitChar d).toUpper = true := by decide
  refine List.forall_mem_append.2 ⟨fun ch hch => ?_, fun ch hch => ?_⟩
  · rw [List.eq_of_mem_replicate hch]
    decide
  · obtain ⟨x, hx, rfl⟩ := List.mem_map.1 hch
    obtain ⟨d, hd, rfl⟩ := Decimal.exists_digitChar (by decide) hx
    exact hall d hd

theorem printable_doubleChar (x : Char) : ∀ ch ∈ doubleChar x, isPrintable ch = true := by
  have hhex (mark : Char) (hmark : isPrintable mark = true) (width n : Nat) :
      ∀ ch ∈ '\\' :: mark :: capitalHex width n, isPrintable ch = true :=
    List.forall_mem_cons.2 ⟨by decide, List.forall_mem_cons.2
      ⟨hmark, printable_capitalHex width n⟩⟩
  unfold doubleChar
  split
  · rename_i h
    simp only [Bool.and_eq_true] at h
    simpa using h.1.1.1
  · split
    · rename_i l hl
      have hletter : isPrintable l = true := by
        unfold escapeLetter? at hl
        split at hl <;> first | cases hl; decide | cases hl
      exact List.forall_mem_cons.2 ⟨by decide, by simpa using hletter⟩
    · split
      · exact hhex 'x' (by decide) _ _
      · split
        · exact hhex 'u' (by decide) _ _
        · exact hhex 'U' (by decide) _ _

/-- **What is laid out stands for itself**, in every style. -/
theorem Laid.printable (h : Laid style cs w) : ∀ ch ∈ w, isPrintable ch = true := by
  cases h with
  | plain hcs => exact List.forall_mem_append.2 ⟨hcs.printable, List.all_eq_true.1 (by decide)⟩
  | single hcs =>
    exact List.forall_mem_cons.2 ⟨by decide, List.forall_mem_append.2
      ⟨printable_singleBody hcs.printable false, List.all_eq_true.1 (by decide)⟩⟩
  | double cs =>
    refine List.forall_mem_cons.2 ⟨by decide, List.forall_mem_append.2
      ⟨fun ch hch => ?_, List.all_eq_true.1 (by decide)⟩⟩
    obtain ⟨x, -, hch⟩ := List.mem_flatMap.1 hch
    exact printable_doubleChar x ch hch
  | literal hne hcs =>
    have hsign : ∀ ch ∈ (chompOf cs).sign, isPrintable ch = true := by
      cases chompOf cs <;> exact List.all_eq_true.1 (by decide)
    have hhints : ∀ ch ∈ literalHints cs, isPrintable ch = true := by
      rw [literalHints_eq]
      refine List.forall_mem_append.2 ⟨?_, hsign⟩
      split <;> exact List.all_eq_true.1 (by decide)
    refine List.forall_mem_cons.2 ⟨by decide, List.forall_mem_append.2 ⟨List.forall_mem_append.2
      ⟨hhints, List.forall_mem_cons.2 ⟨by decide, printable_literalBody hcs true⟩⟩, ?_⟩⟩
    split <;> exact List.all_eq_true.1 (by decide)

theorem isAllowed_of_isPrintable {ch : Char} (h : isPrintable ch = true) : isAllowed ch = true := by
  simp only [isPrintable, isAllowed, Bool.or_eq_true, Bool.and_eq_true, decide_eq_true_eq,
    beq_iff_eq, bne_iff_ne] at h ⊢
  omega

end RevisionWatch.Yaml
