import RevisionWatch.Proofs.Decimal.Digits
import RevisionWatch.Proofs.Yaml.Gaps
/-!
# Texts between quotes

A text that is written between single or double quotes is read again (`reads_single`,
`reads_double`): any text between double ones, and between single ones a text that they can hold
(`Singly`). The reader goes from word to word; here it is followed from character to character
(`Quotes`): a character, an escape, or a gap is taken off the front, and what is left is read as if
it began there. This needs that the count of steps does not matter (`quotedWord_more`).
-/

namespace RevisionWatch.Yaml

/-! ## 1. One step -/

section Steps

variable {single : Bool} {c c₁ c' : Cursor} {acc acc' out : List Char} {ch q : Char}
  {t : List Char} {n : Nat}

/-- An escape takes characters from the front. -/
theorem exists_skip_of_escaped (h : escaped c = some (ch, c')) : ∃ k, c' = c.skip k := by
  unfold escaped at h
  obtain ⟨x, -, h⟩ := Option.bind_eq_some_iff.1 h
  split at h
  · cases h
    exact ⟨1, rfl⟩
  · obtain ⟨k, -, h⟩ := Option.bind_eq_some_iff.1 h
    dsimp only at h
    split at h
    · cases h
    · obtain ⟨v, -, h⟩ := Option.bind_eq_some_iff.1 h
      split at h
      · cases h
      · cases h
        exact ⟨k + 1, rfl⟩

theorem quotedWord_nil (h : c.rest = []) (n : Nat) :
    quotedWord single n acc c = some ((acc, false), c) := by
  cases n with
  | zero => rfl
  | succ n => rw [quotedWord, h]

theorem quotedWord_cons (h : c.rest = ch :: t) (n : Nat) :
    quotedWord single (n + 1) acc c =
      if isOpen ch then some ((acc, false), c)
      else if single then
        if ch == '\'' then
          if c.sees 1 '\'' then quotedWord single n ('\'' :: acc) (c.skip 2)
          else some ((acc, false), c)
        else quotedWord single n (ch :: acc) (c.skip 1)
      else if ch == '"' then some ((acc, false), c)
      else if ch == '\\' then
        if (c.ahead 1).any isBreak then some ((acc, true), (c.skip 1).skipBreak)
        else
          match escaped (c.skip 1) with
          | none => none
          | some (e, c) => quotedWord single n (e :: acc) c
      else quotedWord single n (ch :: acc) (c.skip 1) := by
  rw [quotedWord, h]
  rfl

/-- **The count of steps does not matter** to a word, if there are as many as characters. -/
theorem quotedWord_more {n : Nat} : ∀ {acc : List Char} {c : Cursor}, c.rest.length ≤ n →
    quotedWord single (n + 1) acc c = quotedWord single n acc c := by
  induction n with
  | zero =>
    intro acc c hn
    have hrest : c.rest = [] := List.eq_nil_of_length_eq_zero (Nat.le_zero.1 hn)
    rw [quotedWord_nil hrest, quotedWord_nil hrest]
  | succ n ih =>
    intro acc c hn
    cases hrest : c.rest with
    | nil => rw [quotedWord_nil hrest, quotedWord_nil hrest]
    | cons ch t =>
      have hskip (k : Nat) (hk : 0 < k) (acc : List Char) :
          quotedWord single (n + 1) acc (c.skip k) = quotedWord single n acc (c.skip k) := by
        refine ih ?_
        rw [hrest, List.length_cons] at hn
        rw [Cursor.rest_skip, hrest, List.length_drop, List.length_cons]
        omega
      rw [quotedWord_cons hrest, quotedWord_cons hrest, hskip 1 Nat.one_pos,
        hskip 2 Nat.two_pos]
      cases hescaped : escaped (c.skip 1) with
      | none => rfl
      | some p =>
        obtain ⟨e, c'⟩ := p
        obtain ⟨k, rfl⟩ := exists_skip_of_escaped hescaped
        dsimp only
        rw [Cursor.skip_skip, hskip (1 + k) (Nat.lt_add_right k Nat.one_pos)]

/-- **The rest of a quoted text is read**, with as many steps as there are characters. -/
def Quotes (single : Bool) (acc : List Char) (c : Cursor) (out : List Char) (c' : Cursor) : Prop :=
  ∀ fuel, c.rest.length < fuel → quotedFrom single fuel acc c = some (out, c')

theorem quotedFrom_eq (hcolumn : c.column ≠ 0) (hrest : c.rest ≠ []) :
    quotedFrom single (n + 1) acc c = (do
      let ((acc, broken), c) ← quotedWord single n acc c
      if c.sees 0 (if single then '\'' else '"') then some (acc.reverse, c.skip 1)
      else
        let (g, c) ← gapFrom none n { broken } c
        quotedFrom single n (g.joined.reverse ++ acc) c) := by
  rw [quotedFrom, Cursor.atDocumentMark_eq_false hcolumn]
  cases h : c.rest with
  | nil => exact absurd h hrest
  | cons ch t => rfl

/-- What a word begins with is taken off. -/
theorem quotes_step (hcolumn : c.column ≠ 0) (hcolumn' : c₁.column ≠ 0) (hne : c₁.rest ≠ [])
    (hlt : c₁.rest.length < c.rest.length)
    (hword : ∀ n, quotedWord single (n + 1) acc c = quotedWord single n acc' c₁)
    (h : Quotes single acc' c₁ out c') : Quotes single acc c out c' := by
  intro fuel hfuel
  obtain ⟨n, rfl⟩ : ∃ n, fuel = n + 2 := ⟨fuel - 2, by omega⟩
  have hrest : c.rest ≠ [] := by
    intro hnil
    rw [hnil] at hlt
    cases hlt
  rw [← h (n + 2) (Nat.lt_trans hlt hfuel), quotedFrom_eq hcolumn hrest, quotedFrom_eq hcolumn' hne,
    hword, quotedWord_more (by omega)]

/-- A character that stands for itself. -/
def isInner (single : Bool) (ch : Char) : Bool :=
  !isOpen ch && if single then ch != '\'' else ch != '"' && ch != '\\'

theorem quotes_char (h : c.rest = ch :: t) (hch : isInner single ch = true) (ht : t ≠ [])
    (hcolumn : c.column ≠ 0) (hmore : Quotes single (ch :: acc) (c.skip 1) out c') :
    Quotes single acc c out c' := by
  have hrest : (c.skip 1).rest = t := by rw [Cursor.rest_skip, h]; rfl
  refine quotes_step hcolumn (by rw [Cursor.column_skip]; omega) (hrest ▸ ht)
    (by rw [hrest, h]; exact Nat.lt_succ_self _) (fun n => ?_) hmore
  simp only [isInner, Bool.and_eq_true, Bool.not_eq_true'] at hch
  obtain ⟨hopen, hmark⟩ := hch
  rw [quotedWord_cons h, hopen, if_neg Bool.false_ne_true]
  cases single with
  | true =>
    rw [if_pos rfl, if_neg (by simpa using hmark)]
  | false =>
    simp only [Bool.false_eq_true, if_false, Bool.and_eq_true, bne_iff_ne] at hmark
    rw [if_neg Bool.false_ne_true, if_neg (by simpa using hmark.1), if_neg (by simpa using hmark.2)]

/-- A quote that is doubled. -/
theorem quotes_quote (h : c.rest = '\'' :: '\'' :: t) (ht : t ≠ []) (hcolumn : c.column ≠ 0)
    (hmore : Quotes true ('\'' :: acc) (c.skip 2) out c') : Quotes true acc c out c' := by
  have hrest : (c.skip 2).rest = t := by rw [Cursor.rest_skip, h]; rfl
  refine quotes_step hcolumn (by rw [Cursor.column_skip]; omega) (hrest ▸ ht)
    (by rw [hrest, h, List.length_cons, List.length_cons]; omega) (fun n => ?_) hmore
  have hone : c.sees 1 '\'' = true := by
    rw [Cursor.sees_one_cons h]
    rfl
  rw [quotedWord_cons h, if_neg (by decide), if_pos rfl, if_pos (by decide), hone, if_pos rfl]

/-- An escape. -/
theorem quotes_escape {e : Char} {k : Nat} (h : c.rest = '\\' :: t)
    (hbreak : t.head?.any isBreak = false) (hread : escaped (c.skip 1) = some (e, c.skip (k + 1)))
    (hne : (c.skip (k + 1)).rest ≠ []) (hcolumn : c.column ≠ 0)
    (hmore : Quotes false (e :: acc) (c.skip (k + 1)) out c') : Quotes false acc c out c' := by
  refine quotes_step hcolumn (by rw [Cursor.column_skip]; omega) hne
    (by rw [Cursor.rest_skip, h, List.length_drop, List.length_cons]; omega) (fun n => ?_) hmore
  have hahead : (c.ahead 1).any isBreak = false := by
    unfold Cursor.ahead
    rwa [h, List.getElem?_cons_succ, ← List.head?_eq_getElem?]
  rw [quotedWord_cons h, if_neg (by decide), if_neg Bool.false_ne_true, if_neg (by decide),
    if_pos (by decide), hahead, if_neg Bool.false_ne_true, hread]

/-- The quote that closes. -/
theorem quotes_close (h : c.rest = (if single then '\'' else '"') :: t)
    (ht : t.head? ≠ some '\'') (hcolumn : c.column ≠ 0) :
    Quotes single acc c acc.reverse (c.skip 1) := by
  intro fuel hfuel
  obtain ⟨n, rfl⟩ : ∃ n, fuel = n + 1 := ⟨fuel - 1, by omega⟩
  have hrest : c.rest ≠ [] := by rw [h]; exact List.cons_ne_nil _ _
  have hword (n : Nat) : quotedWord single n acc c = some ((acc, false), c) := by
    cases n with
    | zero => rfl
    | succ n =>
      rw [quotedWord_cons h]
      cases single with
      | true =>
        have hone : c.sees 1 '\'' = false := by
          rw [Cursor.sees_one_cons h]
          exact beq_eq_false_iff_ne.2 ht
        rw [if_neg (by decide), if_pos rfl, if_pos (by decide), hone, if_neg Bool.false_ne_true]
      | false => rfl
  rw [quotedFrom_eq hcolumn hrest, hword]
  show (if c.sees 0 (if single then '\'' else '"') then _ else _) = _
  rw [Cursor.sees_cons h, if_pos (beq_self_eq_true _)]

/-- A gap between two words. -/
theorem quotes_gap {g : Gap} (h : c.rest = ch :: t) (hch : isOpen ch = true) (hcolumn : c.column ≠ 0)
    (hgap : ∀ n, c.rest.length ≤ n → gapFrom none n {} c = some (g, c₁))
    (hlt : c₁.rest.length < c.rest.length)
    (hmore : Quotes single (g.joined.reverse ++ acc) c₁ out c') : Quotes single acc c out c' := by
  intro fuel hfuel
  obtain ⟨n, rfl⟩ : ∃ n, fuel = n + 1 := ⟨fuel - 1, by omega⟩
  have hrest : c.rest ≠ [] := by rw [h]; exact List.cons_ne_nil _ _
  have hword (n : Nat) : quotedWord single n acc c = some ((acc, false), c) := by
    cases n with
    | zero => rfl
    | succ n => rw [quotedWord_cons h, if_pos hch]
  have hquote : c.sees 0 (if single then '\'' else '"') = false := by
    rw [Cursor.sees_cons h, beq_eq_false_iff_ne]
    rintro rfl
    cases single <;> exact absurd hch (by decide)
  rw [quotedFrom_eq hcolumn hrest, hword]
  show (if c.sees 0 (if single then '\'' else '"') then _ else _) = _
  rw [hquote, if_neg Bool.false_ne_true, hgap n (by omega)]
  exact hmore n (by omega)

/-- **Spaces** stand for themselves. -/
theorem quotes_spaces {k : Nat} (h : c.rest = List.replicate (k + 1) ' ' ++ t) (ht : Closed t)
    (hcolumn : c.column ≠ 0)
    (hmore : Quotes single (List.replicate (k + 1) ' ' ++ acc) (c.skip (k + 1)) out c') :
    Quotes single acc c out c' := by
  have hlength : c.rest.length = k + 1 + t.length := by
    rw [h, List.length_append, List.length_replicate]
  have hgap (n : Nat) (hn : c.rest.length ≤ n) : gapFrom none n {} c =
      some ({ blanks := List.replicate (k + 1) ' ' }, c.skip (k + 1)) := by
    obtain ⟨n, rfl⟩ : ∃ m, n = m + 1 := ⟨n - 1, by omega⟩
    exact gapFrom_spaces h ht n
  have hcons : c.rest = ' ' :: (List.replicate k ' ' ++ t) := h
  refine quotes_gap hcons (by decide) hcolumn hgap
    (by rw [Cursor.rest_skip, List.length_drop]; omega) ?_
  rwa [Gap.joined, if_neg Bool.false_ne_true, List.reverse_replicate]

/-- **Breaks** stand for themselves behind one that is no line feed, with the next line indented. -/
theorem quotes_breaks {b : Char} {bs : List Char} (h : c.rest = (b :: bs) ++ (textIndent ++ t))
    (ht : Closed t) (hbs : ∀ x ∈ b :: bs, isBreak x = true ∧ isPrintable x = true) (hb : b ≠ '\n')
    (hcolumn : c.column ≠ 0)
    (hmore : Quotes single ((b :: bs).reverse ++ acc)
      ((c.below (b :: bs).length (textIndent ++ t)).skip 2) out c') :
    Quotes single acc c out c' := by
  have hlength : c.rest.length = bs.length + 3 + t.length := by
    rw [h]
    simp [textIndent]
    omega
  have hcons : c.rest = b :: (bs ++ (textIndent ++ t)) := h
  have hgap (n : Nat) (hn : c.rest.length ≤ n) : gapFrom none n {} c =
      some ({ broken := true, first := [b], others := bs.reverse },
        (c.below (b :: bs).length (textIndent ++ t)).skip 2) := by
    obtain ⟨n, rfl⟩ : ∃ m, n = m + 1 := ⟨n - 1, by omega⟩
    exact gapFrom_breaks ht hbs h (by omega)
  have hopen : isOpen b = true := Bool.or_eq_true_iff.2 (.inr (hbs b List.mem_cons_self).1)
  refine quotes_gap hcons hopen hcolumn hgap ?_ ?_
  · rw [hlength, Cursor.rest_skip, Cursor.rest_below]
    show t.length < _
    omega
  · rw [Gap.joined, if_pos rfl, if_neg (by simpa using hb), List.reverse_reverse]
    exact hmore

end Steps

/-! ## 2. Texts between quotes -/

section Texts

variable {single : Bool} {body : List Char → List Char} {c c₁ : Cursor} {acc cs t : List Char}
  {ch : Char} {k : Nat}

/-- **A text is read from between its quotes**, wherever they stand. -/
def Reads (single : Bool) (body : List Char → List Char) (t cs : List Char) : Prop :=
  ∀ (c : Cursor) (acc : List Char),
    c.rest = body cs ++ (if single then '\'' else '"') :: t → c.column ≠ 0 →
    ∃ c', Quotes single acc c (acc.reverse ++ cs) c' ∧ c'.rest = t

/-- What stands in front has been read. -/
theorem Reads.behind (hread : Reads single body t cs) (acc front : List Char) (c₁ : Cursor)
    (h : c₁.rest = body cs ++ (if single then '\'' else '"') :: t) (hcolumn : c₁.column ≠ 0) :
    ∃ c', Quotes single (front.reverse ++ acc) c₁ (acc.reverse ++ (front ++ cs)) c' ∧
      c'.rest = t := by
  have hread' := hread c₁ (front.reverse ++ acc) h hcolumn
  rwa [List.reverse_append, List.reverse_reverse, List.append_assoc] at hread'

theorem reads_nil (hbody : body [] = []) (ht : t.head? ≠ some '\'') : Reads single body t [] := by
  intro c acc h hcolumn
  rw [hbody, List.nil_append] at h
  rw [List.append_nil]
  exact ⟨c.skip 1, quotes_close h ht hcolumn, by rw [Cursor.rest_skip, h]; rfl⟩

theorem reads_char (hread : Reads single body t cs) (hbody : body (ch :: cs) = ch :: body cs)
    (hch : isInner single ch = true) : Reads single body t (ch :: cs) := by
  intro c acc h hcolumn
  rw [hbody, List.cons_append] at h
  obtain ⟨c', hread, hend⟩ := hread.behind acc [ch] (c.skip 1) (by rw [Cursor.rest_skip, h]; rfl)
    (by rw [Cursor.column_skip]; omega)
  exact ⟨c', quotes_char h hch (by simp) hcolumn hread, hend⟩

theorem reads_spaces (hread : Reads single body t cs)
    (hbody : body (List.replicate (k + 1) ' ' ++ cs) = List.replicate (k + 1) ' ' ++ body cs)
    (hclosed : Closed (body cs ++ (if single then '\'' else '"') :: t)) :
    Reads single body t (List.replicate (k + 1) ' ' ++ cs) := by
  intro c acc h hcolumn
  rw [hbody, List.append_assoc] at h
  have hskip := Cursor.rest_skip_append h
  rw [List.length_replicate] at hskip
  obtain ⟨c', hread, hend⟩ := hread.behind acc (List.replicate (k + 1) ' ') (c.skip (k + 1)) hskip
    (by rw [Cursor.column_skip]; omega)
  rw [List.reverse_replicate] at hread
  exact ⟨c', quotes_spaces h hclosed hcolumn hread, hend⟩

end Texts

/-! ## 3. Single quotes -/

section Single

variable {c : Cursor} {acc front cs bs t : List Char} {ch b : Char} {n : Nat}

/-- **What single quotes can hold**: characters that stand for themselves, none of them a line feed,
    and no space beside a break. -/
structure Singly (cs : List Char) : Prop where
  printable : ∀ ch ∈ cs, isPrintable ch = true
  unfed : '\n' ∉ cs
  behind : hasPair isBreak (· == ' ') cs = false
  before : hasPair (· == ' ') isBreak cs = false

theorem Singly.of_append (h : Singly (front ++ cs)) : Singly cs :=
  ⟨fun ch hch => h.printable ch (List.mem_append_right front hch),
    fun hmem => h.unfed (List.mem_append_right front hmem), hasPair_of_append h.behind,
    hasPair_of_append h.before⟩

theorem singleBody_spaces (n : Nat) (cs : List Char) :
    singleBody false (List.replicate n ' ' ++ cs) = List.replicate n ' ' ++ singleBody false cs := by
  induction n with
  | zero => rfl
  | succ n ih =>
    rw [List.replicate_succ, List.cons_append, singleBody, ih]
    rfl

theorem singleBody_breaks (hbs : ∀ b ∈ bs, isBreak b = true) (cs : List Char) :
    singleBody true (bs ++ cs) = bs ++ singleBody true cs := by
  induction bs with
  | nil => rfl
  | cons b bs ih =>
    obtain ⟨hb, hbs⟩ := List.forall_mem_cons.1 hbs
    rw [List.cons_append, singleBody, if_pos hb, ih hbs]
    rfl

/-- What does not begin with a break is indented behind one. -/
theorem singleBody_indented (h : ∀ ch ∈ cs.head?, isBreak ch = false) :
    singleBody true cs = textIndent ++ singleBody false cs := by
  cases cs with
  | nil => rfl
  | cons ch cs =>
    rw [singleBody, singleBody, h ch rfl, if_neg Bool.false_ne_true, if_neg Bool.false_ne_true]
    simp

/-- What begins with neither a gap nor a break is written so. -/
theorem closed_singleBody (h : Closed cs) (t : List Char) :
    Closed (singleBody false cs ++ '\'' :: t) := by
  cases cs with
  | nil => exact closed_cons (by decide) t
  | cons ch cs =>
    have hch : isOpen ch = false := h ch rfl
    rw [singleBody, (isOpen_eq_false.1 hch).2, if_neg Bool.false_ne_true]
    by_cases hquote : ch = '\''
    · subst hquote
      exact closed_cons (by decide) _
    · rw [if_neg Bool.false_ne_true, if_neg (by simpa using hquote)]
      exact closed_cons hch _

theorem reads_breaks (hread : Reads true (singleBody false) t cs) (hcs : Closed cs)
    (hbs : ∀ x ∈ b :: bs, isBreak x = true ∧ isPrintable x = true) (hb : b ≠ '\n') :
    Reads true (singleBody false) t (b :: bs ++ cs) := by
  intro c acc h hcolumn
  have hbody : singleBody false (b :: bs ++ cs) =
      b :: bs ++ (textIndent ++ singleBody false cs) := by
    obtain ⟨⟨hb', -⟩, hbs⟩ := List.forall_mem_cons.1 hbs
    rw [List.cons_append, singleBody, if_pos hb', singleBody_breaks fun x hx => (hbs x hx).1,
      singleBody_indented fun x hx => (isOpen_eq_false.1 (hcs x hx)).2]
    rfl
  rw [hbody, List.append_assoc, List.append_assoc] at h
  let indented : List Char := textIndent ++ (singleBody false cs ++ '\'' :: t)
  obtain ⟨c', hread, hend⟩ := hread.behind acc (b :: bs) ((c.below (b :: bs).length indented).skip 2)
    rfl (by rw [Cursor.column_skip]; omega)
  exact ⟨c', quotes_breaks h (closed_singleBody hcs t) hbs hb hcolumn hread, hend⟩

theorem reads_quote (hread : Reads true (singleBody false) t cs) :
    Reads true (singleBody false) t ('\'' :: cs) := by
  intro c acc h hcolumn
  obtain ⟨c', hread, hend⟩ := hread.behind acc ['\''] (c.skip 2)
    (by rw [Cursor.rest_skip, h]; rfl) (by rw [Cursor.column_skip]; omega)
  exact ⟨c', quotes_quote h (by simp) hcolumn hread, hend⟩

/-- **A text between single quotes is read** up to its quote. -/
theorem reads_single (hcs : Singly cs) (ht : t.head? ≠ some '\'') :
    Reads true (singleBody false) t cs := by
  -- a row of spaces or of breaks is taken at once
  induction hn : cs.length using Nat.strongRecOn generalizing cs with
  | ind n ih =>
    subst hn
    cases cs with
    | nil => exact reads_nil rfl ht
    | cons ch cs =>
      obtain ⟨hp, -⟩ := List.forall_mem_cons.1 hcs.printable
      obtain hspace | ⟨k, rest, heq, hrest⟩ := exists_spaces ch cs
      · by_cases hbreak : isBreak ch = true
        · obtain ⟨row, rest, rfl, hrow, hrest⟩ := exists_row isBreak cs
          have hrow' : ∀ x ∈ ch :: row, isBreak x = true := List.forall_mem_cons.2 ⟨hbreak, hrow⟩
          rw [← List.cons_append] at hcs ⊢
          have hclosed : Closed rest := closed_of_printable hcs.of_append.printable
            (head_of_hasPair hcs.behind (List.cons_ne_nil _ _) hrow') hrest
          have hlt : rest.length < (ch :: (row ++ rest)).length := by
            rw [List.length_cons, List.length_append]
            omega
          refine reads_breaks (ih rest.length hlt hcs.of_append rfl) hclosed
            (fun x hx => ⟨hrow' x hx, hcs.printable x (List.mem_append_left rest hx)⟩) ?_
          rintro rfl
          exact hcs.unfed List.mem_cons_self
        · have hread := ih cs.length (Nat.lt_succ_self _) (@Singly.of_append [ch] cs hcs) rfl
          by_cases hquote : ch = '\''
          · subst hquote
            exact reads_quote hread
          · refine reads_char hread ?_ ?_
            · rw [singleBody, if_neg hbreak, if_neg Bool.false_ne_true,
                if_neg (by simpa using hquote)]
              rfl
            · have hgap : isGap ch = false := Bool.eq_false_iff.2 fun hgap =>
                hspace (eq_space_of_isGap hp hgap)
              simp [isInner, isOpen, hgap, hbreak, hquote]
      · rw [heq] at hcs ⊢
        have hbreak : ∀ x ∈ rest.head?, isBreak x = false :=
          head_of_hasPair hcs.before (by simp) fun x hx => by
            rw [List.eq_of_mem_replicate hx]
            rfl
        have hclosed : Closed rest := closed_of_printable hcs.of_append.printable hrest hbreak
        refine reads_spaces (ih rest.length ?_ hcs.of_append rfl) (singleBody_spaces _ _)
          (closed_singleBody hclosed t)
        rw [heq, List.length_append, List.length_replicate]
        omega

end Single

/-! ## 4. Double quotes -/

section Double

variable {c : Cursor} {cs t e : List Char} {x l : Char} {n width : Nat}

/-- **An escape of a character**, as it stands behind its backslash. -/
structure Escapes (x : Char) (e : List Char) : Prop where
  unbroken : ∀ u, (e ++ u).head?.any isBreak = false
  read : ∀ (c : Cursor) (u : List Char), c.rest = e ++ u → escaped c = some (x, c.skip e.length)

theorem escape?_of_letter (h : escapeLetter? x = some l) :
    isBreak l = false ∧ escape? l = some x := by
  unfold escapeLetter? at h
  split at h <;> first | cases h; decide | cases h

theorem escapes_letter (h : escapeLetter? x = some l) : Escapes x [l] := by
  obtain ⟨hbreak, hl⟩ := escape?_of_letter h
  refine ⟨fun _ => hbreak, fun c u hrest => ?_⟩
  have hahead : c.ahead 0 = some l := by
    unfold Cursor.ahead
    rw [hrest]
    rfl
  unfold escaped
  rw [hahead]
  dsimp only [Option.bind_eq_bind, Option.bind_some]
  rw [hl]
  rfl

theorem length_capitalHex (hwidth : 0 < width) (h : n < 16 ^ width) :
    (capitalHex width n).length = width := by
  have hle : (Nat.toDigits 16 n).length ≤ width :=
    (Nat.length_toDigits_le_iff (by decide) hwidth).2 h
  unfold capitalHex
  rw [List.length_append, List.length_replicate, List.length_map]
  omega

/-- A number is read from its digits in capitals. -/
theorem value?_capitalHex (width n : Nat) : Decimal.value? 16 (capitalHex width n) = some n := by
  have hall : ∀ d < 16, Text.lowerChar (Nat.digitChar d).toUpper = Nat.digitChar d := by decide
  have hlower : ∀ ch ∈ Nat.toDigits 16 n, (Text.lowerChar ∘ Char.toUpper) ch = id ch := by
    intro ch hch
    obtain ⟨d, hd, rfl⟩ := Decimal.exists_digitChar (by decide) hch
    exact hall d hd
  refine @Decimal.value?_numeral _ n 16 (by decide) (by decide)
    (width - ((Nat.toDigits 16 n).map Char.toUpper).length) ?_
  unfold capitalHex
  rw [List.map_append, List.map_replicate, List.map_map, List.map_congr_left hlower, List.map_id]
  rfl

/-- No character is a surrogate or lies beyond the last. -/
theorem toNat_valid (x : Char) :
    ((0xD800 ≤ x.toNat && x.toNat ≤ 0xDFFF) || decide (0x10FFFF < x.toNat)) = false := by
  have hvalid : x.toNat < 0xD800 ∨ 0xDFFF < x.toNat ∧ x.toNat < 0x110000 := x.valid
  simp
  omega

theorem escapes_hex {m : Char} (hm : escapeDigits? m = some width) (hwidth : 0 < width)
    (hx : x.toNat < 16 ^ width) : Escapes x (m :: capitalHex width x.toNat) := by
  have hlength := length_capitalHex hwidth hx
  have hmark : isBreak m = false ∧ escape? m = none := by
    unfold escapeDigits? at hm
    split at hm <;> first | decide | cases hm
  refine ⟨fun _ => hmark.1, fun c u hrest => ?_⟩
  have hahead : c.ahead 0 = some m := by
    unfold Cursor.ahead
    rw [hrest]
    rfl
  have hdigits : (c.rest.drop 1).take width = capitalHex width x.toNat := by
    rw [hrest]
    exact List.take_left' hlength
  unfold escaped
  rw [hahead]
  dsimp only [Option.bind_eq_bind, Option.bind_some]
  rw [hmark.2, hm]
  dsimp only [Option.bind_some]
  rw [hdigits, hlength, if_neg (Nat.lt_irrefl _), value?_capitalHex]
  dsimp only [Option.bind_some]
  rw [if_neg (Bool.eq_false_iff.1 (toNat_valid x)), Char.ofNat_toNat, List.length_cons, hlength]

/-- **A character between double quotes** stands for itself, or it is escaped. -/
theorem doubleChar_cases (x : Char) :
    doubleChar x = [x] ∧ (x = ' ' ∨ isInner false x = true) ∨
      ∃ e, doubleChar x = '\\' :: e ∧ Escapes x e := by
  unfold doubleChar
  split
  · rename_i h
    simp only [Bool.and_eq_true, Bool.not_eq_true', bne_iff_ne] at h
    obtain ⟨⟨⟨hp, hbreak⟩, hquote⟩, hslash⟩ := h
    refine .inl ⟨rfl, ?_⟩
    cases hgap : isGap x with
    | true => exact .inl (eq_space_of_isGap hp hgap)
    | false => exact .inr (by simp [isInner, isOpen, hgap, hbreak, hquote, hslash])
  · refine .inr ?_
    split
    · rename_i l hl
      exact ⟨_, rfl, escapes_letter hl⟩
    · split
      · exact ⟨_, rfl, escapes_hex rfl (by decide) (by omega)⟩
      · split
        · exact ⟨_, rfl, escapes_hex rfl (by decide) (by omega)⟩
        · have hvalid : x.toNat < 0xD800 ∨ 0xDFFF < x.toNat ∧ x.toNat < 0x110000 := x.valid
          exact ⟨_, rfl, escapes_hex rfl (by decide) (by omega)⟩

theorem reads_escape (hread : Reads false (List.flatMap doubleChar) t cs)
    (he : doubleChar x = '\\' :: e) (hx : Escapes x e) :
    Reads false (List.flatMap doubleChar) t (x :: cs) := by
  intro c acc h hcolumn
  rw [List.flatMap_cons, he, List.append_assoc, List.cons_append] at h
  have hone : (c.skip 1).rest = e ++ (cs.flatMap doubleChar ++ '"' :: t) := by
    rw [Cursor.rest_skip, h]
    rfl
  have hescaped := hx.read (c.skip 1) _ hone
  have hrest := Cursor.rest_skip_append hone
  rw [Cursor.skip_skip, Nat.add_comm] at hescaped hrest
  obtain ⟨c', hread, hend⟩ := hread.behind acc [x] (c.skip (e.length + 1)) hrest
    (by rw [Cursor.column_skip]; omega)
  exact ⟨c', quotes_escape h (hx.unbroken _) hescaped (by rw [hrest]; simp) hcolumn hread, hend⟩

theorem doubleChars_spaces (n : Nat) (cs : List Char) :
    (List.replicate n ' ' ++ cs).flatMap doubleChar =
      List.replicate n ' ' ++ cs.flatMap doubleChar := by
  have hspace : doubleChar ' ' = [' '] := by decide
  induction n with
  | zero => rfl
  | succ n ih =>
    rw [List.replicate_succ, List.cons_append, List.flatMap_cons, ih, hspace]
    rfl

/-- What does not begin with a space is written so, and no gap or break is in front. -/
theorem closed_doubleChars (h : ∀ ch ∈ cs.head?, (ch == ' ') = false) (t : List Char) :
    Closed (cs.flatMap doubleChar ++ '"' :: t) := by
  cases cs with
  | nil => exact closed_cons (by decide) t
  | cons ch cs =>
    rw [List.flatMap_cons]
    obtain ⟨hch, rfl | hinner⟩ | ⟨e, hch, -⟩ := doubleChar_cases ch
    · exact absurd (h ' ' rfl) (by decide)
    · rw [hch]
      refine closed_cons ?_ _
      simp only [isInner, Bool.and_eq_true, Bool.not_eq_true'] at hinner
      exact hinner.1
    · rw [hch]
      exact closed_cons (by decide) _

/-- **Any text between double quotes is read** up to its quote. -/
theorem reads_double (ht : t.head? ≠ some '\'') (cs : List Char) :
    Reads false (List.flatMap doubleChar) t cs := by
  induction hn : cs.length using Nat.strongRecOn generalizing cs with
  | ind n ih =>
    subst hn
    cases cs with
    | nil => exact reads_nil rfl ht
    | cons ch cs =>
      obtain hspace | ⟨k, rest, heq, hrest⟩ := exists_spaces ch cs
      · have hread := ih cs.length (Nat.lt_succ_self _) cs rfl
        obtain ⟨hch, rfl | hinner⟩ | ⟨e, hch, he⟩ := doubleChar_cases ch
        · exact absurd rfl hspace
        · refine reads_char hread ?_ hinner
          rw [List.flatMap_cons, hch]
          rfl
        · exact reads_escape hread hch he
      · rw [heq]
        refine reads_spaces (ih rest.length ?_ rest rfl) (doubleChars_spaces _ _)
          (closed_doubleChars hrest t)
        rw [heq, List.length_append, List.length_replicate]
        omega

end Double

/-! ## 5. Scalars -/

/-- **A quoted text is read**, whatever has been written behind it. -/
theorem quoted_of_reads {single : Bool} {body : List Char → List Char} {c : Cursor}
    {cs t : List Char} (hread : Reads single body t cs)
    (h : c.rest = body cs ++ (if single then '\'' else '"') :: t) (hcolumn : c.column ≠ 0) :
    ∃ c', quoted single c = some (cs, c') ∧ c'.rest = t := by
  obtain ⟨c', hquotes, hend⟩ := hread c [] h hcolumn
  exact ⟨c', hquotes _ (Nat.lt_succ_self _), hend⟩

end RevisionWatch.Yaml
