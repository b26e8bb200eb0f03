import Mathlib.Data.List.Basic
import RevisionWatch.Yaml.Printer
/-!
# Between the words of a scalar

What the readers of scalars have in common: where a cursor stands, and what a gap between two words
is read as. Two kinds of gaps are written: a row of spaces, which is read as it stands
(`gapFrom_spaces`), and between single quotes a row of breaks with the indentation of the next line,
which is read as the breaks (`gapFrom_breaks`).
-/

namespace RevisionWatch.Yaml

/-! ## 1. Breaks and cursors -/

/-- The breaks. -/
theorem break_cases {b : Char} (h : isBreak b = true) :
    b = '\r' ∨ b = '\n' ∨ b = '\x85' ∨ b = '\u2028' ∨ b = '\u2029' := by
  simpa [isBreak, or_assoc] using h

namespace Cursor

variable {c : Cursor} {ch b : Char} {t : List Char} {n : Nat}

@[simp]
theorem rest_skip (c : Cursor) (n : Nat) : (c.skip n).rest = c.rest.drop n := rfl

@[simp]
theorem column_skip (c : Cursor) (n : Nat) : (c.skip n).column = c.column + n := rfl

@[simp]
theorem index_skip (c : Cursor) (n : Nat) : (c.skip n).index = c.index + n := rfl

@[simp]
theorem line_skip (c : Cursor) (n : Nat) : (c.skip n).line = c.line := rfl

@[simp]
theorem skip_zero (c : Cursor) : c.skip 0 = c := rfl

theorem skip_skip (c : Cursor) (m n : Nat) : (c.skip m).skip n = c.skip (m + n) := by
  simp [skip, Nat.add_assoc]

theorem rest_skip_append {cs : List Char} (h : c.rest = cs ++ t) :
    (c.skip cs.length).rest = t := by
  rw [rest_skip, h, List.drop_left]

theorem atGap_cons (h : c.rest = ch :: t) : c.atGap = isGap ch := by
  unfold atGap
  rw [h]

theorem atBreak_cons (h : c.rest = ch :: t) : c.atBreak = isBreak ch := by
  unfold atBreak
  rw [h]

theorem sees_cons (h : c.rest = ch :: t) (x : Char) : c.sees 0 x = (ch == x) := by
  unfold sees ahead
  rw [h]
  rfl

theorem sees_one_cons (h : c.rest = ch :: t) (x : Char) : c.sees 1 x = (t.head? == some x) := by
  unfold sees ahead
  rw [h, List.getElem?_cons_succ, ← List.head?_eq_getElem?]

theorem isOpenAt_one_cons (h : c.rest = ch :: t) : c.isOpenAt 1 = t.head?.all isOpen := by
  unfold isOpenAt ahead
  rw [h, List.getElem?_cons_succ, ← List.head?_eq_getElem?]
  cases t.head? <;> rfl

/-- A word that ends a document stands at the start of a line. -/
theorem atDocumentMark_eq_false (h : c.column ≠ 0) : c.atDocumentMark = false := by
  unfold atDocumentMark
  rw [beq_eq_false_iff_ne.2 h]
  rfl

/-- The place behind so many breaks, with what is left there. -/
def below (c : Cursor) (n : Nat) (t : List Char) : Cursor :=
  ⟨t, c.index + n, c.line + n, 0⟩

@[simp]
theorem rest_below (c : Cursor) (n : Nat) (t : List Char) : (c.below n t).rest = t := rfl

@[simp]
theorem column_below (c : Cursor) (n : Nat) (t : List Char) : (c.below n t).column = 0 := rfl

theorem below_below (c : Cursor) (m n : Nat) (s t : List Char) :
    (c.below m s).below n t = c.below (m + n) t := by
  simp [below, Nat.add_assoc]

theorem below_zero (h : c.rest = t) (hcolumn : c.column = 0) : c.below 0 t = c := by
  obtain ⟨rest, index, line, column⟩ := c
  cases h
  cases hcolumn
  rfl

/-- A break that may stand for itself is read as itself. -/
theorem breakLine_of_printable (h : c.rest = b :: t) (hb : isBreak b = true)
    (hp : isPrintable b = true) : c.breakLine = (some b, c.below 1 t) := by
  unfold breakLine
  rw [h]
  rcases break_cases hb with rfl | rfl | rfl | rfl | rfl
  · exact absurd hp (by decide)
  · rfl
  · exact absurd hp (by decide)
  · rfl
  · rfl

end Cursor

/-! ## 2. Characters side by side -/

/-- **No two characters of the classes stand side by side**, if none are found. -/
theorem hasPair_eq_false {p q : Char → Bool} : ∀ {cs : List Char}, hasPair p q cs = false ↔
    ∀ front a b back, cs = front ++ a :: b :: back → p a = true → q b = false
  | [] => by
    refine ⟨fun _ front a b back h => ?_, fun _ => rfl⟩
    cases front <;> cases h
  | [x] => by
    refine ⟨fun _ front a b back h => ?_, fun _ => rfl⟩
    rcases front with _ | ⟨y, _ | ⟨z, front⟩⟩ <;> cases h
  | x :: y :: cs => by
    rw [hasPair, Bool.or_eq_false_iff, hasPair_eq_false]
    constructor
    · rintro ⟨hxy, hmore⟩ front a b back h ha
      cases front with
      | nil =>
        cases h
        rwa [ha, Bool.true_and] at hxy
      | cons z front => exact hmore front a b back (List.cons.inj h).2 ha
    · intro h
      refine ⟨?_, fun front a b back heq => h (x :: front) a b back (by rw [heq]; rfl)⟩
      cases hx : p x with
      | false => rfl
      | true => exact h [] x y cs rfl hx

theorem hasPair_of_append {p q : Char → Bool} {front back : List Char}
    (h : hasPair p q (front ++ back) = false) : hasPair p q back = false := by
  rw [hasPair_eq_false] at h ⊢
  intro front' a b back' heq
  exact h (front ++ front') a b back' (by rw [heq, List.append_assoc])

/-- What stands behind a row of the first class is not of the second. -/
theorem head_of_hasPair {p q : Char → Bool} {row t : List Char}
    (h : hasPair p q (row ++ t) = false) (hne : row ≠ []) (hrow : ∀ ch ∈ row, p ch = true) :
    ∀ ch ∈ t.head?, q ch = false := by
  intro ch hch
  obtain ⟨back, rfl⟩ : ∃ back, t = ch :: back := List.head?_eq_some_iff.1 hch
  have hlast : row = row.dropLast ++ [row.getLast hne] := (List.dropLast_append_getLast hne).symm
  refine hasPair_eq_false.1 h row.dropLast (row.getLast hne) ch back ?_
    (hrow _ (List.getLast_mem hne))
  rw [List.append_cons row.dropLast, ← hlast]

/-- A row of one class, and what follows it. -/
theorem exists_row (p : Char → Bool) (cs : List Char) :
    ∃ row t, cs = row ++ t ∧ (∀ ch ∈ row, p ch = true) ∧ ∀ ch ∈ t.head?, p ch = false := by
  refine ⟨cs.takeWhile p, cs.dropWhile p, List.takeWhile_append_dropWhile.symm,
    List.all_eq_true.1 List.all_takeWhile, fun ch hch => ?_⟩
  have hnot := List.head?_dropWhile_not p cs
  rw [hch] at hnot
  simpa using hnot

/-- What stands before a row of one class at the end. -/
theorem exists_row_last (p : Char → Bool) (cs : List Char) :
    ∃ front row, cs = front ++ row ∧ (∀ ch ∈ front.getLast?, p ch = false) ∧
      ∀ ch ∈ row, p ch = true := by
  obtain ⟨row, t, hcs, hrow, ht⟩ := exists_row p cs.reverse
  refine ⟨t.reverse, row.reverse, ?_, ?_, fun ch hch => hrow ch (List.mem_reverse.1 hch)⟩
  · rw [← List.reverse_append, ← hcs, List.reverse_reverse]
  · rwa [List.getLast?_reverse]

/-- **A text that neither begins nor ends with a character of a class**, and has some. -/
structure Solid (p : Char → Bool) (cs : List Char) : Prop where
  nonempty : cs ≠ []
  head : ∀ ch ∈ cs.head?, p ch = false
  last : ∀ ch ∈ cs.getLast?, p ch = false

/-- **It is a row without the class**, or such a row, a row of the class, and such a text again. -/
theorem Solid.rows {p : Char → Bool} {cs : List Char} (h : Solid p cs) :
    ∃ w, w ≠ [] ∧ (∀ ch ∈ w, p ch = false) ∧ (cs = w ∨ ∃ row rest, row ≠ [] ∧
      (∀ ch ∈ row, p ch = true) ∧ cs = w ++ (row ++ rest) ∧ Solid p rest) := by
  obtain ⟨w, more, rfl, hw, hmore⟩ := exists_row (fun ch => !p ch) cs
  obtain ⟨row, rest, rfl, hrow, hrest⟩ := exists_row p more
  replace hw : ∀ ch ∈ w, p ch = false := fun ch hch => by simpa using hw ch hch
  have hne : w ≠ [] := by
    rintro rfl
    obtain ⟨ch, hch⟩ := Option.isSome_iff_exists.1 (List.isSome_head?.2 h.nonempty)
    have hnot : p ch = true := by simpa using hmore ch hch
    rw [h.head ch hch] at hnot
    cases hnot
  refine ⟨w, hne, hw, ?_⟩
  cases row with
  | nil =>
    rw [List.nil_append] at hmore ⊢
    cases rest with
    | nil => exact .inl (List.append_nil w)
    | cons ch rest =>
      have hnot : p ch = true := by simpa using hmore ch rfl
      rw [hrest ch rfl] at hnot
      cases hnot
  | cons x row =>
    have hsome : rest ≠ [] := by
      rintro rfl
      have hlast := List.getLast?_eq_some_getLast (List.cons_ne_nil x row)
      have hnot := h.last _ (by
        rw [List.append_nil, List.getLast?_append, hlast]
        rfl)
      rw [hrow _ (List.mem_of_getLast? hlast)] at hnot
      cases hnot
    refine .inr ⟨x :: row, rest, List.cons_ne_nil x row, hrow, rfl, hsome, hrest, ?_⟩
    intro ch hch
    refine h.last ch ?_
    rw [List.getLast?_append, List.getLast?_append, hch]
    rfl

/-- A text starts with a character that is no space, or with a row of spaces. -/
theorem exists_spaces (ch : Char) (cs : List Char) : ch ≠ ' ' ∨
    ∃ k rest, ch :: cs = List.replicate (k + 1) ' ' ++ rest ∧
      ∀ x ∈ rest.head?, (x == ' ') = false := by
  by_cases hspace : ch = ' '
  · obtain ⟨row, rest, rfl, hrow, hrest⟩ := exists_row (· == ' ') cs
    obtain ⟨k, rfl⟩ : ∃ k, row = List.replicate k ' ' :=
      ⟨row.length, List.eq_replicate_iff.2 ⟨rfl, fun x hx => beq_iff_eq.1 (hrow x hx)⟩⟩
    exact .inr ⟨k, rest, by rw [hspace]; rfl, hrest⟩
  · exact .inl hspace

/-! ## 3. Gaps -/

variable {c : Cursor} {i : Option Int} {g : Gap} {cs t : List Char} {n k : Nat}

/-- What starts with neither a gap nor a break. -/
def Closed (t : List Char) : Prop :=
  ∀ ch ∈ t.head?, isOpen ch = false

theorem closed_cons {ch : Char} (h : isOpen ch = false) (t : List Char) : Closed (ch :: t) := by
  intro ch' hch
  cases hch
  exact h

theorem isOpen_eq_false {ch : Char} : isOpen ch = false ↔ isGap ch = false ∧ isBreak ch = false :=
  Bool.or_eq_false_iff

theorem at_closed (h : Closed c.rest) : c.atGap = false ∧ c.atBreak = false := by
  unfold Cursor.atGap Cursor.atBreak
  cases hrest : c.rest with
  | nil => exact ⟨rfl, rfl⟩
  | cons ch t => exact isOpen_eq_false.1 (h ch (by rw [hrest]; rfl))

theorem sees_closed (h : Closed c.rest) {x : Char} (hx : isOpen x = true) :
    c.sees 0 x = false := by
  cases hrest : c.rest with
  | nil =>
    unfold Cursor.sees Cursor.ahead
    rw [hrest]
    rfl
  | cons ch t =>
    rw [Cursor.sees_cons hrest]
    refine beq_eq_false_iff_ne.2 ?_
    rintro rfl
    rw [h ch (by rw [hrest]; rfl)] at hx
    cases hx

theorem gapFrom_closed (h : Closed c.rest) (n : Nat) : gapFrom i n g c = some (g, c) := by
  cases n with
  | zero => rfl
  | succ n =>
    obtain ⟨hgap, hbreak⟩ := at_closed h
    rw [gapFrom, hgap, hbreak, if_neg Bool.false_ne_true, if_neg Bool.false_ne_true]

/-- A row that one class holds ends where the class does. -/
theorem takeWhile_row {p : Char → Bool} {row : List Char} (hrow : ∀ ch ∈ row, p ch = true)
    (ht : ∀ ch ∈ t.head?, p ch = false) : (row ++ t).takeWhile p = row := by
  rw [List.takeWhile_append_of_pos hrow]
  cases t with
  | nil => exact List.append_nil row
  | cons ch t => rw [List.takeWhile_cons_of_neg (Bool.eq_false_iff.1 (ht ch rfl)), List.append_nil]

theorem takeWhile_spaces (ht : Closed t) (k : Nat) :
    (List.replicate k ' ' ++ t).takeWhile isGap = List.replicate k ' ' :=
  takeWhile_row (fun ch hch => by rw [List.eq_of_mem_replicate hch]; rfl)
    fun ch hch => (isOpen_eq_false.1 (ht ch hch)).1

/-- **Spaces between two words are read as they stand.** -/
theorem gapFrom_spaces (h : c.rest = List.replicate (k + 1) ' ' ++ t) (ht : Closed t) (n : Nat) :
    gapFrom i (n + 1) {} c =
      some ({ blanks := List.replicate (k + 1) ' ' }, c.skip (k + 1)) := by
  have hrest : (c.skip (k + 1)).rest = t := by
    have hlength : (List.replicate (k + 1) ' ').length = k + 1 := List.length_replicate
    have hskip := Cursor.rest_skip_append h
    rwa [hlength] at hskip
  have hcons : c.rest = ' ' :: (List.replicate k ' ' ++ t) := h
  rw [gapFrom, Cursor.atGap_cons hcons, if_pos (by decide), h, takeWhile_spaces ht]
  dsimp only
  rw [if_neg Bool.false_ne_true, List.nil_append, List.length_replicate]
  exact gapFrom_closed (hrest ▸ ht) n

/-- The only gap that may stand for itself is the space. -/
theorem eq_space_of_isGap {ch : Char} (hp : isPrintable ch = true) (h : isGap ch = true) :
    ch = ' ' := by
  have hchars : ch = ' ' ∨ ch = '\t' := by simpa [isGap] using h
  rcases hchars with rfl | rfl
  · rfl
  · exact absurd hp (by decide)

/-- What begins with neither a space nor a break begins with neither a gap nor a break. -/
theorem closed_of_printable (hcs : ∀ ch ∈ cs, isPrintable ch = true)
    (hspace : ∀ ch ∈ cs.head?, (ch == ' ') = false) (hbreak : ∀ ch ∈ cs.head?, isBreak ch = false) :
    Closed cs := by
  intro ch hch
  have hp : isPrintable ch = true := hcs ch (List.mem_of_mem_head? hch)
  refine isOpen_eq_false.2 ⟨?_, hbreak ch hch⟩
  cases hgap : isGap ch with
  | false => rfl
  | true => exact absurd (eq_space_of_isGap hp hgap) (beq_eq_false_iff_ne.1 (hspace ch hch))

theorem isGap_of_isBreak {b : Char} (hb : isBreak b = true) : isGap b = false := by
  rcases break_cases hb with rfl | rfl | rfl | rfl | rfl <;> decide

/-- **The end of a line** is a gap, if a word starts the next line. -/
theorem gapFrom_lineEnd (h : c.rest = '\n' :: t) (ht : Closed t) (n : Nat) :
    gapFrom i (n + 1) {} c = some ({ broken := true, first := ['\n'] }, c.below 1 t) := by
  rw [gapFrom, Cursor.atGap_cons h, if_neg (by decide), Cursor.atBreak_cons h, if_pos (by decide),
    Cursor.breakLine_of_printable h (by decide) (by decide)]
  dsimp only
  rw [if_neg Bool.false_ne_true]
  exact gapFrom_closed ht n

/-- The breaks that are left of a gap, and the indentation behind them. -/
theorem gapFrom_more_breaks {bs : List Char} (ht : Closed t)
    (hbs : ∀ b ∈ bs, isBreak b = true ∧ isPrintable b = true) :
    ∀ {c : Cursor} {g : Gap} {n : Nat}, c.rest = bs ++ (textIndent ++ t) → c.column = 0 →
      g.broken = true → bs.length < n → gapFrom none n g c =
        some ({ g with others := bs.reverse ++ g.others },
          (c.below bs.length (textIndent ++ t)).skip 2) := by
  induction bs with
  | nil =>
    intro c g n h hcolumn hg hn
    obtain ⟨n, rfl⟩ := Nat.exists_eq_succ_of_ne_zero (Nat.ne_of_gt hn)
    have hskip : (c.skip 2).rest = t := by
      rw [Cursor.rest_skip, h]
      rfl
    have hrun : c.rest.takeWhile isGap = List.replicate 2 ' ' := by
      rw [h]
      exact takeWhile_spaces ht 2
    have hindent : c.rest = textIndent ++ t := h
    have hclosed : gapFrom none n g (c.skip 2) = some (g, c.skip 2) := gapFrom_closed (hskip ▸ ht) n
    rw [gapFrom, Cursor.atGap_cons (show c.rest = ' ' :: (' ' :: t) from h), if_pos (by decide),
      hrun]
    dsimp only
    rw [if_pos hg, if_neg (by decide), List.length_nil, Cursor.below_zero hindent hcolumn]
    exact hclosed
  | cons b bs ih =>
    intro c g n h hcolumn hg hn
    obtain ⟨n, rfl⟩ := Nat.exists_eq_succ_of_ne_zero (Nat.ne_of_gt (Nat.zero_lt_of_lt hn))
    obtain ⟨⟨hb, hp⟩, hmore⟩ := List.forall_mem_cons.1 hbs
    have hcons : c.rest = b :: (bs ++ (textIndent ++ t)) := h
    have hread := @ih hmore (c.below 1 (bs ++ (textIndent ++ t)))
      { g with others := b :: g.others } n rfl rfl hg (Nat.lt_of_succ_lt_succ hn)
    rw [gapFrom, Cursor.atGap_cons hcons, isGap_of_isBreak hb, if_neg Bool.false_ne_true,
      Cursor.atBreak_cons hcons, if_pos hb, Cursor.breakLine_of_printable hcons hb hp]
    dsimp only
    rw [if_pos hg]
    refine hread.trans ?_
    rw [Cursor.below_below, Nat.add_comm 1, List.reverse_cons, List.append_assoc]
    rfl

/-- **Breaks between two words are read as they stand**, with the first kept apart. -/
theorem gapFrom_breaks {b : Char} {bs : List Char} (ht : Closed t)
    (hbs : ∀ x ∈ b :: bs, isBreak x = true ∧ isPrintable x = true)
    (h : c.rest = (b :: bs) ++ (textIndent ++ t)) (hn : bs.length < n) :
    gapFrom none (n + 1) {} c =
      some ({ broken := true, first := [b], others := bs.reverse },
        (c.below (b :: bs).length (textIndent ++ t)).skip 2) := by
  obtain ⟨⟨hb, hp⟩, hmore⟩ := List.forall_mem_cons.1 hbs
  have hcons : c.rest = b :: (bs ++ (textIndent ++ t)) := h
  have hread := @gapFrom_more_breaks t bs ht hmore (c.below 1 (bs ++ (textIndent ++ t)))
    { broken := true, first := [b] } n rfl rfl rfl hn
  rw [gapFrom, Cursor.atGap_cons hcons, isGap_of_isBreak hb, if_neg Bool.false_ne_true,
    Cursor.atBreak_cons hcons, if_pos hb, Cursor.breakLine_of_printable hcons hb hp]
  dsimp only
  rw [if_neg Bool.false_ne_true]
  refine hread.trans ?_
  rw [Cursor.below_below, Nat.add_comm 1, List.append_nil]
  rfl

end RevisionWatch.Yaml
