import RevisionWatch.Proofs.Yaml.Gaps
/-!
# Texts without quotes

A text that is written as it is, is read again up to the end of its line (`plain_bare`), if nothing
in it is a mark (`Bare`); and a word of such a text is read up to the mark of a key (`plain_key`).
The reader goes from word to word, and so does the induction.
-/

namespace RevisionWatch.Yaml

variable {c : Cursor} {g : Gap} {acc cs w t u front : List Char} {n fuel : Nat} {indent : Int}

/-! ## 1. Words -/

/-- **No colon ends a key**, if none is found. -/
theorem hasKeyMark_eq_false : ∀ {cs : List Char}, hasKeyMark cs = false ↔
    ∀ front back, cs = front ++ ':' :: back → back.head?.all isOpen = false
  | [] => by
    refine ⟨fun _ front back h => ?_, fun _ => rfl⟩
    cases front <;> cases h
  | ch :: cs => by
    rw [hasKeyMark, Bool.or_eq_false_iff, hasKeyMark_eq_false]
    constructor
    · rintro ⟨hhead, hmore⟩ front back h
      cases front with
      | nil =>
        cases h
        rwa [beq_self_eq_true, Bool.true_and] at hhead
      | cons x front => exact hmore front back (List.cons.inj h).2
    · intro h
      refine ⟨?_, fun front back heq => h (ch :: front) back (by rw [heq]; rfl)⟩
      by_cases hch : ch = ':'
      · subst hch
        rw [h [] cs rfl, Bool.and_false]
      · rw [beq_eq_false_iff_ne.2 hch, Bool.false_and]

/-- A word ends here: the text does, or here is a gap, a break, or a colon that ends a key. -/
def endsWord : List Char → Bool
  | [] => true
  | ch :: t => isOpen ch || (ch == ':' && t.head?.all isOpen)

theorem plainWord_ends (h : endsWord c.rest = true) (n : Nat) (acc : List Char) :
    plainWord false n acc c = some (acc, c) := by
  cases n with
  | zero => rfl
  | succ n =>
    rw [plainWord]
    cases hrest : c.rest with
    | nil => rfl
    | cons ch t =>
      rw [hrest, endsWord] at h
      dsimp only
      cases hopen : isOpen ch with
      | true => rw [if_pos (show (isGap ch || isBreak ch) = true from hopen)]
      | false =>
        rw [hopen, Bool.false_or] at h
        have hends : endsPlain false c = true := by
          rw [endsPlain, Cursor.sees_cons hrest, Cursor.isOpenAt_one_cons hrest, h]
          rfl
        rw [if_neg (Bool.eq_false_iff.1 (show (isGap ch || isBreak ch) = false from hopen)),
          if_neg (show ¬badColon false c = true from Bool.false_ne_true), if_pos hends]

theorem plainWord_cons {ch : Char} (h : c.rest = ch :: t) (hch : endsWord (ch :: t) = false) :
    plainWord false (n + 1) acc c = plainWord false n (ch :: acc) (c.skip 1) := by
  obtain ⟨hopen, hkey⟩ := Bool.or_eq_false_iff.1 hch
  have hends : endsPlain false c = false := by
    rw [endsPlain, Cursor.sees_cons h, Cursor.isOpenAt_one_cons h, hkey]
    rfl
  rw [plainWord, h]
  dsimp only
  rw [if_neg (Bool.eq_false_iff.1 (show (isGap ch || isBreak ch) = false from hopen)),
    if_neg (show ¬badColon false c = true from Bool.false_ne_true), hends,
    if_neg Bool.false_ne_true]

/-- **A word** with what stands behind it: it ends nowhere before its end. -/
def Word (w u : List Char) : Prop :=
  ∀ front ch back, w = front ++ ch :: back → endsWord (ch :: (back ++ u)) = false

/-- **A word is read** up to its end. -/
theorem plainWord_eq (hw : Word w u) (hu : endsWord u = true) (h : c.rest = w ++ u)
    (hn : w.length ≤ n) : plainWord false n acc c = some (w.reverse ++ acc, c.skip w.length) := by
  induction w generalizing acc n c with
  | nil =>
    rw [plainWord_ends (h ▸ hu)]
    rfl
  | cons ch w ih =>
    obtain ⟨n, rfl⟩ := Nat.exists_eq_succ_of_ne_zero (Nat.ne_of_gt (Nat.zero_lt_of_lt hn))
    have hskip : (c.skip 1).rest = w ++ u := by
      rw [Cursor.rest_skip, h]
      rfl
    have hmore : Word w u := fun front x back heq => hw (ch :: front) x back (by rw [heq]; rfl)
    rw [plainWord_cons h (hw [] ch w rfl), ih hmore hskip (Nat.le_of_succ_le_succ hn),
      Cursor.skip_skip, Nat.add_comm 1, List.reverse_cons, List.append_assoc]
    rfl

/-! ## 2. Texts -/

/-- **What can be written as it is**: characters that stand for themselves, none of them a break; no
    colon ends a key, and no number sign begins a comment. -/
structure Bare (cs : List Char) : Prop where
  printable : ∀ ch ∈ cs, isPrintable ch = true
  unbroken : ∀ ch ∈ cs, isBreak ch = false
  unkeyed : hasKeyMark cs = false
  uncommented : hasPair isOpen (· == '#') cs = false

theorem Bare.of_append (h : Bare (front ++ cs)) : Bare cs where
  printable ch hch := h.printable ch (List.mem_append_right front hch)
  unbroken ch hch := h.unbroken ch (List.mem_append_right front hch)
  unkeyed := by
    have hunkeyed := hasKeyMark_eq_false.1 h.unkeyed
    refine hasKeyMark_eq_false.2 fun front' back heq => hunkeyed (front ++ front') back ?_
    rw [heq, List.append_assoc]
  uncommented := hasPair_of_append h.uncommented

/-- The first word of a text. -/
theorem Bare.word (h : Bare (w ++ cs)) (hw : ∀ ch ∈ w, isOpen ch = false) (t : List Char) :
    Word w (cs ++ '\n' :: t) := by
  rintro front ch back rfl
  have hunkeyed := hasKeyMark_eq_false.1 h.unkeyed
  rw [endsWord, hw ch (by simp), Bool.false_or]
  by_cases hch : ch = ':'
  · subst hch
    have hhead := hunkeyed front (back ++ cs) (by simp)
    rw [← List.append_assoc]
    cases hmore : back ++ cs with
    | nil =>
      rw [hmore] at hhead
      cases hhead
    | cons x more =>
      rw [hmore] at hhead
      exact hhead
  · rw [beq_eq_false_iff_ne.2 hch, Bool.false_and]

/-- One word, and the gap that may follow it. -/
theorem plainFrom_word (hw : Word w u) (hne : w ≠ []) (hu : endsWord u = true)
    (hhash : w.head? ≠ some '#') (h : c.rest = w ++ u) (hmark : c.atDocumentMark = false)
    (hfuel : w.length ≤ fuel) :
    plainFrom false indent (fuel + 1) g acc c =
      if (c.skip w.length).atGap || (c.skip w.length).atBreak then do
        let (g', next) ← gapFrom (some indent) fuel {} (c.skip w.length)
        if (next.column : Int) < indent then
          some (((w.reverse ++ (g.joined.reverse ++ acc)).reverse, g'.broken), next)
        else plainFrom false indent fuel g' (w.reverse ++ (g.joined.reverse ++ acc)) next
      else some (((w.reverse ++ (g.joined.reverse ++ acc)).reverse, false), c.skip w.length) := by
  have hsees : c.sees 0 '#' = false := by
    cases w with
    | nil => exact absurd rfl hne
    | cons ch w =>
      rw [Cursor.sees_cons h]
      exact beq_eq_false_iff_ne.2 fun hch => hhash (congrArg some hch)
  have hsome : (w.reverse ++ []).isEmpty = false := by
    simpa using hne
  rw [plainFrom, hmark, hsees, plainWord_eq hw hu h hfuel]
  show (if (w.reverse ++ []).isEmpty then _ else _) = _
  rw [hsome, if_neg Bool.false_ne_true, List.append_nil]
  simp only [Bool.not_false, Bool.true_and, decide_eq_true_eq]

/-- **Words and rows of spaces** are all there is, and a word is the last. -/
theorem Bare.rows (hcs : Bare cs) (hsolid : Solid isOpen cs) :
    ∃ w, w ≠ [] ∧ (∀ ch ∈ w, isOpen ch = false) ∧ (cs = w ∨ ∃ k rest,
      cs = w ++ (List.replicate (k + 1) ' ' ++ rest) ∧ Solid isOpen rest ∧
        rest.head? ≠ some '#') := by
  obtain ⟨w, hwne, hw, hcase⟩ := hsolid.rows
  refine ⟨w, hwne, hw, ?_⟩
  obtain rfl | ⟨row, rest, hne, hrow, rfl, hrest⟩ := hcase
  · exact .inl rfl
  · have hspace : ∀ ch ∈ row, ch = ' ' := fun ch hch => by
      have hbreak : isBreak ch = false := hcs.unbroken ch (by simp [hch])
      have hopen : isOpen ch = true := hrow ch hch
      rw [isOpen, hbreak, Bool.or_false] at hopen
      exact eq_space_of_isGap (hcs.printable ch (by simp [hch])) hopen
    obtain ⟨k, hk⟩ := Nat.exists_eq_succ_of_ne_zero (mt List.eq_nil_of_length_eq_zero hne)
    obtain rfl : row = List.replicate (k + 1) ' ' := List.eq_replicate_iff.2 ⟨hk, hspace⟩
    refine .inr ⟨k, rest, rfl, hrest, fun hhash => ?_⟩
    exact absurd (head_of_hasPair hcs.of_append.uncommented hne hrow '#' hhash) (by decide)

theorem head?_append_ne {w : List Char} (hne : w ≠ []) {ch : Char}
    (h : (w ++ u).head? ≠ some ch) : w.head? ≠ some ch := by
  rwa [List.head?_append_of_ne_nil _ hne] at h

/-- **A text that is written as it is, is read** up to the end of its line, if a word starts it. -/
theorem plainFrom_bare (ht : Closed t) (hcs : Bare cs) (hsolid : Solid isOpen cs)
    (hhash : cs.head? ≠ some '#') (h : c.rest = cs ++ '\n' :: t) (hcolumn : 0 < c.column)
    (hfuel : c.rest.length < fuel) :
    plainFrom false 1 fuel g acc c =
      some (((g.joined.reverse ++ acc).reverse ++ cs, true), (c.skip cs.length).below 1 t) := by
  -- one word after another; the text ends with a word
  induction hn : cs.length using Nat.strongRecOn generalizing cs c g acc fuel with
  | ind n ih =>
    subst hn
    obtain ⟨fuel, rfl⟩ : ∃ n, fuel = n + 1 := ⟨fuel - 1, by omega⟩
    have hmark : c.atDocumentMark = false := Cursor.atDocumentMark_eq_false (by omega)
    have hlength : c.rest.length = cs.length + (t.length + 1) := by
      rw [h]
      simp
    obtain ⟨fuel, rfl⟩ : ∃ n, fuel = n + 1 := ⟨fuel - 1, by omega⟩
    obtain ⟨w, hwne, hw, rfl | ⟨k, rest, rfl, hrest, hhash'⟩⟩ := hcs.rows hsolid
    · have hword : Word cs ('\n' :: t) := @Bare.word [] cs (by rwa [List.append_nil]) hw t
      have hskip := Cursor.rest_skip_append h
      have hgap := @gapFrom_lineEnd (c.skip cs.length) (some 1) t hskip ht fuel
      rw [plainFrom_word hword hwne rfl hhash h hmark (by omega),
        Cursor.atBreak_cons hskip, if_pos (by simp [isBreak]), hgap]
      simp
    · have hword := hcs.word hw t
      rw [List.append_assoc, List.append_assoc] at h
      rw [List.append_assoc] at hword
      have hskip := Cursor.rest_skip_append h
      have hskip' := Cursor.rest_skip_append hskip
      rw [List.length_replicate] at hskip'
      have hbehind : Closed (rest ++ '\n' :: t) := by
        intro ch hch
        rw [List.head?_append_of_ne_nil _ hrest.nonempty] at hch
        exact hrest.head ch hch
      have hcount : (w ++ (List.replicate (k + 1) ' ' ++ rest)).length =
          w.length + (k + 1 + rest.length) := by simp
      rw [plainFrom_word hword hwne rfl (head?_append_ne hwne hhash) h hmark (by omega),
        Cursor.atGap_cons hskip, if_pos (by simp [isGap]), gapFrom_spaces hskip hbehind]
      dsimp only [Option.bind_eq_bind, Option.bind_some]
      have hcolumn' : 0 < ((c.skip w.length).skip (k + 1)).column := by
        rw [Cursor.column_skip, Cursor.column_skip]
        omega
      have hfuel' : ((c.skip w.length).skip (k + 1)).rest.length < fuel + 1 := by
        rw [hskip', List.length_append, List.length_cons]
        omega
      rw [if_neg (by simp; omega), ih rest.length (by omega) hcs.of_append.of_append hrest hhash'
        hskip' hcolumn' hfuel' rfl]
      simp [Gap.joined, Cursor.skip, Cursor.below, Nat.add_assoc]

/-- **A text that is written as it is, is read** up to the end of its line. -/
theorem plain_bare (ht : Closed t) (hcs : Bare cs) (hsolid : Solid isOpen cs)
    (hhash : cs.head? ≠ some '#') (h : c.rest = cs ++ '\n' :: t) (hcolumn : 0 < c.column) :
    plain false 1 c = some ((cs, true), (c.skip cs.length).below 1 t) :=
  plainFrom_bare ht hcs hsolid hhash h hcolumn (Nat.lt_succ_self _)

/-- **A word is read** up to the colon behind it. -/
theorem plain_key (hw : ∀ ch ∈ w, isOpen ch = false ∧ ch ≠ ':') (hne : w ≠ [])
    (hhash : w.head? ≠ some '#') (hmark : c.atDocumentMark = false)
    (h : c.rest = w ++ ':' :: t) (ht : t.head?.all isOpen = true) :
    plain false indent c = some ((w, false), c.skip w.length) := by
  have hword : Word w (':' :: t) := by
    rintro front ch back rfl
    obtain ⟨hopen, hcolon⟩ := hw ch (by simp)
    rw [endsWord, hopen, beq_eq_false_iff_ne.2 hcolon]
    rfl
  have hends : endsWord (':' :: t) = true := by
    rw [endsWord, ht]
    rfl
  have hskip := Cursor.rest_skip_append h
  have hlength : c.rest.length = w.length + (t.length + 1) := by
    rw [h]
    simp
  unfold plain
  rw [plainFrom_word hword hne hends hhash h hmark (by omega), Cursor.atGap_cons hskip,
    Cursor.atBreak_cons hskip, if_neg (by decide)]
  simp [Gap.joined]

end RevisionWatch.Yaml
