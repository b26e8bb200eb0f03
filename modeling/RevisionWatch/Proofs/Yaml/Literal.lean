import RevisionWatch.Proofs.Yaml.Gaps
/-!
# Texts in lines of their own

A text that is written in lines of its own is read again (`block_literal`). A text is parted into
the breaks at its start, the lines, and the breaks at its end. The breaks at the start are read at
once (`blockBreaks_row`), the lines by an induction that takes one line and the breaks behind it
(`blockLines_body`), and the header says what is left of the breaks at the end (`chompOf`).
-/

namespace RevisionWatch.Yaml

variable {c : Cursor} {cs t u bs body line acc : List Char} {n fuel widest : Nat} {b : Block}

/-! ## 1. The header -/

/-- What happens to the breaks at the end of a text. -/
def chompOf (cs : List Char) : Chomp :=
  match cs.reverse with
  | [] => .strip
  | last :: before =>
    if !isBreak last then .strip else if before.head?.all isBreak then .keep else .clip

/-- The sign of a chomping. -/
def Chomp.sign : Chomp → List Char
  | .strip => ['-']
  | .clip => []
  | .keep => ['+']

theorem literalHints_eq (cs : List Char) : literalHints cs =
    (if cs.head?.any fun ch => ch == ' ' || isBreak ch then ['2'] else []) ++ (chompOf cs).sign := by
  unfold literalHints chompOf
  refine congrArg _ ?_
  cases cs.reverse with
  | nil => rfl
  | cons last before =>
    dsimp only
    cases isBreak last <;> cases before.head?.all isBreak <;> rfl

/-- **The header is read** as what it says. -/
theorem blockHeader_eq {hinted : Bool} {chomp : Chomp}
    (h : c.rest = (if hinted then ['2'] else []) ++ (chomp.sign ++ '\n' :: t)) :
    ∃ c', blockHeader c = some ((chomp, if hinted then some 2 else none), c') ∧
      c'.rest = '\n' :: t := by
  obtain ⟨rest, index, line, column⟩ := c
  cases h
  cases hinted <;> cases chomp <;> exact ⟨_, rfl, rfl⟩

theorem endLine?_eq (h : c.rest = '\n' :: t) : c.endLine? = some (c.below 1 t) := by
  obtain ⟨rest, index, line, column⟩ := c
  cases h
  rfl

/-! ## 2. Breaks -/

/-- What follows a row of breaks: a line, indented, or something that is not. -/
inductive Behind : List Char → Nat → Prop where
  | line (ch : Char) (t : List Char) (h : isBreak ch = false) : Behind (textIndent ++ ch :: t) 2
  | other (t : List Char) (h : Closed t) : Behind t 0

/-- The indentation is passed, and no more of the line. -/
theorem min_spaces {k : Nat} (hu : Behind u k) :
    min (u.takeWhile (· == ' ')).length 2 = k := by
  cases hu with
  | line ch t h =>
    simp only [textIndent, List.cons_append, List.nil_append, List.takeWhile_cons, beq_self_eq_true,
      if_true, List.length_cons]
    omega
  | other _ h =>
    cases u with
    | nil => rfl
    | cons ch t =>
      have hch : isOpen ch = false := h ch rfl
      rw [List.takeWhile_cons_of_neg]
      · rfl
      · intro hspace
        rw [beq_iff_eq.1 hspace] at hch
        cases hch

/-- Here no break and no fault is found. -/
theorem stops {k : Nat} (hu : Behind u k) (h : c.rest = u) (hcolumn : c.column = 0) :
    ((some 2).all (fun n => decide ((c.skip k).column < n)) && (c.skip k).sees 0 '\t') = false ∧
      (c.skip k).atBreak = false := by
  cases hu with
  | line ch t hch =>
    have hrest : (c.skip 2).rest = ch :: t := by
      rw [Cursor.rest_skip, h]
      rfl
    rw [Cursor.atBreak_cons hrest, Cursor.column_skip, hcolumn]
    exact ⟨rfl, hch⟩
  | other _ hclosed =>
    have hrest : Closed (c.skip 0).rest := h ▸ hclosed
    rw [sees_closed hrest (by decide), Bool.and_false]
    exact ⟨rfl, (at_closed hrest).2⟩

/-- **A row of breaks is read**, with the indentation of the line behind it. -/
theorem blockBreaks_row {k : Nat} (hu : Behind u k)
    (hbs : ∀ x ∈ bs, isBreak x = true ∧ isPrintable x = true) (h : c.rest = bs ++ u)
    (hcolumn : c.column = 0) (hfuel : bs.length < fuel) :
    ∃ widest', blockBreaks (some 2) fuel widest acc c =
      some ((acc.reverse ++ bs, widest'), (c.below bs.length u).skip k) := by
  induction bs generalizing fuel widest acc c with
  | nil =>
    obtain ⟨fuel, rfl⟩ := Nat.exists_eq_succ_of_ne_zero (Nat.ne_of_gt hfuel)
    obtain ⟨hfault, hbreak⟩ := stops hu h hcolumn
    refine ⟨max widest (c.skip k).column, ?_⟩
    rw [blockBreaks, h, hcolumn]
    dsimp only
    rw [List.nil_append, min_spaces hu, if_neg (Bool.eq_false_iff.1 hfault), hbreak,
      if_neg Bool.false_ne_true, List.append_nil, List.length_nil,
      Cursor.below_zero (show c.rest = u from h) hcolumn]
  | cons x bs ih =>
    obtain ⟨fuel, rfl⟩ := Nat.exists_eq_succ_of_ne_zero (Nat.ne_of_gt (Nat.zero_lt_of_lt hfuel))
    obtain ⟨⟨hx, hp⟩, hmore⟩ := List.forall_mem_cons.1 hbs
    have hcons : c.rest = x :: (bs ++ u) := h
    have hspaces : ((x :: (bs ++ u)).takeWhile (· == ' ')).length = 0 := by
      rw [List.takeWhile_cons_of_neg]
      · rfl
      · intro hspace
        rw [beq_iff_eq.1 hspace] at hx
        cases hx
    have htab : c.sees 0 '\t' = false := by
      rw [Cursor.sees_cons hcons]
      refine beq_eq_false_iff_ne.2 ?_
      rintro rfl
      cases hx
    obtain ⟨widest', hread⟩ := @ih (c.below 1 (bs ++ u)) (x :: acc) fuel (max widest c.column) hmore
      rfl rfl (Nat.lt_of_succ_lt_succ hfuel)
    refine ⟨widest', ?_⟩
    rw [blockBreaks, hcons, hspaces]
    dsimp only
    rw [Nat.zero_min, Cursor.skip_zero, htab, Bool.and_false, if_neg Bool.false_ne_true,
      Cursor.atBreak_cons hcons, if_pos hx, Cursor.breakLine_of_printable hcons hx hp]
    refine hread.trans ?_
    rw [Cursor.below_below, List.reverse_cons, List.append_assoc, List.length_cons, Nat.add_comm 1]
    rfl

/-! ## 3. Lines -/

/-- The text of a block with all its breaks. -/
def Block.held (b : Block) : List Char :=
  b.text.reverse ++ (b.ending ++ b.breaks)

/-- The first character of a line stands behind the indentation. -/
theorem literalBody_char {ch : Char} (h : isBreak ch = false) (broken : Bool) (cs : List Char) :
    literalBody broken (ch :: cs) =
      (if broken then textIndent else []) ++ ch :: literalBody false cs := by
  rw [literalBody, h, if_neg Bool.false_ne_true]

theorem literalBody_row (hline : ∀ ch ∈ line, isBreak ch = false) (cs : List Char) :
    literalBody false (line ++ cs) = line ++ literalBody false cs := by
  induction line with
  | nil => rfl
  | cons ch line ih =>
    obtain ⟨hch, hline⟩ := List.forall_mem_cons.1 hline
    rw [List.cons_append, literalBody_char hch, ih hline]
    rfl

theorem literalBody_breaks (hbs : ∀ x ∈ bs, isBreak x = true) (cs : List Char) :
    literalBody true (bs ++ cs) = bs ++ literalBody true cs := by
  induction bs with
  | nil => rfl
  | cons x bs ih =>
    obtain ⟨hx, hbs⟩ := List.forall_mem_cons.1 hbs
    rw [List.cons_append, literalBody, if_pos hx, ih hbs]
    rfl

/-- One line, and the breaks behind it. -/
theorem blockLines_line {k : Nat} {x : Char} (hu : Behind u k)
    (hline : ∀ ch ∈ line, isBreak ch = false)
    (hbs : ∀ ch ∈ x :: bs, isBreak ch = true ∧ isPrintable ch = true)
    (h : c.rest = line ++ (x :: bs ++ u)) (hcolumn : c.column = 2) (hfuel : bs.length < fuel) :
    ∃ gapped, blockLines false 2 (fuel + 1) b c =
      blockLines false 2 fuel ⟨(b.held ++ line).reverse, [x], bs, gapped⟩
        (((c.skip line.length).below (x :: bs).length u).skip k) := by
  obtain ⟨⟨hx, hp⟩, hmore⟩ := List.forall_mem_cons.1 hbs
  have hskip : (c.skip line.length).rest = x :: (bs ++ u) := Cursor.rest_skip_append h
  have hempty : c.rest.isEmpty = false := by
    rw [h]
    simp
  have hrun : c.rest.takeWhile (!isBreak ·) = line := by
    rw [h]
    refine takeWhile_row (fun ch hch => by rw [hline ch hch]; rfl) fun ch hch => ?_
    cases hch
    rw [hx]
    rfl
  have htext : line.reverse ++ b.continued false c.atGap = (b.held ++ line).reverse := by
    simp [Block.continued, Block.held]
  obtain ⟨widest, hbreaks⟩ : ∃ widest, blockBreaks (some 2) fuel 0 []
      ((c.skip line.length).below 1 (bs ++ u)) = some ((bs, widest), _) :=
    blockBreaks_row hu hmore rfl rfl hfuel
  refine ⟨c.atGap, ?_⟩
  rw [blockLines, hcolumn, hempty, if_pos (by decide), hrun]
  dsimp only
  rw [htext, Cursor.breakLine_of_printable hskip hx hp]
  dsimp only
  rw [hbreaks, Cursor.below_below]
  simp only [List.length_cons, Nat.add_comm 1]
  rfl

theorem blockLines_stops (hcolumn : c.column = 0) (n : Nat) :
    blockLines false 2 n b c = some (b, c) := by
  cases n with
  | zero => rfl
  | succ n =>
    rw [blockLines, hcolumn]
    rfl

/-- **The lines of a text are read**, with the breaks behind the last. -/
theorem blockLines_body {x : Char} (ht : Closed t) (hsolid : Solid isBreak body)
    (hprint : ∀ ch ∈ body, isPrintable ch = true)
    (hbs : ∀ ch ∈ x :: bs, isBreak ch = true ∧ isPrintable ch = true)
    (h : c.rest = literalBody false body ++ (x :: bs ++ t)) (hcolumn : c.column = 2)
    (hfuel : c.rest.length < fuel) :
    ∃ gapped c', blockLines false 2 fuel b c =
      some (⟨(b.held ++ body).reverse, [x], bs, gapped⟩, c') ∧ c'.rest = t ∧ c'.column = 0 := by
  -- a line is taken, and the breaks behind it
  induction hn : body.length using Nat.strongRecOn generalizing body b c fuel with
  | ind n ih =>
    subst hn
    obtain ⟨fuel, rfl⟩ : ∃ n, fuel = n + 1 := ⟨fuel - 1, by omega⟩
    obtain ⟨line, -, hline, rfl | ⟨row, rest, hrow, hbreaks, rfl, hrest⟩⟩ := hsolid.rows
    · have hbody := literalBody_row hline []
      rw [List.append_nil, literalBody, List.append_nil] at hbody
      rw [hbody] at h
      obtain ⟨gapped, hstep⟩ := blockLines_line (b := b) (.other t ht) hline hbs h hcolumn
        (show bs.length < fuel by rw [h] at hfuel; simp at hfuel; omega)
      rw [hstep, blockLines_stops (by simp)]
      exact ⟨gapped, _, rfl, rfl, rfl⟩
    · obtain ⟨y, row, rfl⟩ := List.exists_cons_of_ne_nil hrow
      obtain ⟨ch, rest, rfl⟩ := List.exists_cons_of_ne_nil hrest.nonempty
      have hch : isBreak ch = false := hrest.head ch rfl
      have hread : ∀ z ∈ y :: row, isBreak z = true ∧ isPrintable z = true := fun z hz =>
        ⟨hbreaks z hz, hprint z (List.mem_append_right line (List.mem_append_left _ hz))⟩
      have hbody : literalBody false (line ++ (y :: row ++ ch :: rest)) =
          line ++ (y :: row ++ (textIndent ++ ch :: literalBody false rest)) := by
        obtain ⟨hy, hrow⟩ := List.forall_mem_cons.1 hbreaks
        rw [literalBody_row hline, List.cons_append, literalBody, if_pos hy,
          literalBody_breaks hrow, literalBody_char hch]
        rfl
      have hch' : literalBody false (ch :: rest) = ch :: literalBody false rest :=
        literalBody_char hch false rest
      rw [hbody] at h
      simp only [List.append_assoc, List.cons_append] at h
      obtain ⟨gapped, hstep⟩ := blockLines_line (b := b) (.line ch _ hch) hline hread h hcolumn
        (show row.length < fuel by rw [h] at hfuel; simp at hfuel; omega)
      let next := ((c.skip line.length).below (y :: row).length
        (textIndent ++ ch :: (literalBody false rest ++ x :: (bs ++ t)))).skip 2
      obtain ⟨gapped', c', hrest, hend⟩ := @ih (ch :: rest).length (by simp; omega) next (ch :: rest)
        fuel ⟨(b.held ++ line).reverse, [y], row, gapped⟩ hrest
        (fun z hz => hprint z (by simp at hz ⊢; tauto)) (by rw [hch']; rfl) rfl
        (by rw [h] at hfuel; simp [textIndent, next] at hfuel ⊢; omega) rfl
      refine ⟨gapped', c', hstep.trans (hrest.trans ?_), hend⟩
      simp [Block.held]

/-! ## 4. Texts -/

theorem literalBody_last (hbs : ∀ x ∈ bs, isBreak x = true) (body : List Char) (broken : Bool) :
    literalBody broken (body ++ bs) = literalBody broken body ++ bs := by
  induction body generalizing broken with
  | nil =>
    cases bs with
    | nil => cases broken <;> rfl
    | cons x bs =>
      obtain ⟨hx, hbs⟩ := List.forall_mem_cons.1 hbs
      have hmore := literalBody_breaks hbs []
      rw [List.append_nil, literalBody, List.append_nil] at hmore
      show literalBody broken (x :: bs) = x :: bs
      rw [literalBody, if_pos hx, hmore]
  | cons ch body ih =>
    rw [List.cons_append, literalBody, literalBody, ih, ih]
    split
    · rfl
    · rw [List.append_assoc]
      rfl

theorem chompOf_append (front : List Char) (x : Char) : chompOf (front ++ [x]) =
    if !isBreak x then .strip else if front.getLast?.all isBreak then .keep else .clip := by
  unfold chompOf
  rw [List.reverse_append, ← List.head?_reverse]
  rfl

/-- More than one break at the end, or nothing but breaks, is kept. -/
theorem chompOf_keep (front : List Char) (hne : bs ≠ []) (hbs : ∀ ch ∈ bs, isBreak ch = true)
    (hfront : front = [] ∨ 1 < bs.length) : chompOf (front ++ bs) = .keep := by
  obtain ⟨row, x, rfl⟩ := (List.eq_nil_or_concat' bs).resolve_left hne
  have hx : isBreak x = true := hbs x (by simp)
  have hlast : (front ++ row).getLast?.all isBreak = true := by
    obtain rfl | ⟨row, y, rfl⟩ := List.eq_nil_or_concat' row
    · obtain rfl | hlength := hfront
      · rfl
      · simp at hlength
    · rw [← List.append_assoc, List.getLast?_concat]
      exact hbs y (by simp)
  rw [← List.append_assoc, chompOf_append, hx, hlast]
  rfl

/-- The text of a block whose last line ends with no break of its own. -/
theorem chomped_strip {x : Char} {gapped : Bool} (hcs : cs.getLast? = some x)
    (hx : isBreak x = false) :
    (⟨cs.reverse, ['\n'], [], gapped⟩ : Block).chomped (chompOf cs) = cs := by
  obtain ⟨front, rfl⟩ := List.getLast?_eq_some_iff.1 hcs
  rw [chompOf_append, hx]
  exact List.reverse_reverse _

/-- The text of a block with breaks at its end. -/
theorem chomped_breaks {x y : Char} {gapped : Bool} (hbody : body.getLast? = some x)
    (hx : isBreak x = false) (hbs : ∀ ch ∈ y :: bs, isBreak ch = true) :
    (⟨body.reverse, [y], bs, gapped⟩ : Block).chomped (chompOf (body ++ y :: bs)) =
      body ++ y :: bs := by
  cases bs with
  | nil =>
    rw [chompOf_append, hbs y List.mem_cons_self, hbody, Option.all_some, hx]
    simp [Block.chomped]
  | cons z bs =>
    rw [chompOf_keep body (List.cons_ne_nil _ _) hbs (.inr (by simp))]
    simp [Block.chomped]

/-- An indentation that is not given is that of the first line. -/
theorem blockBreaks_seen {ch : Char} (hch : isOpen ch = false) (h : c.rest = textIndent ++ ch :: t)
    (hcolumn : c.column = 0) (n : Nat) :
    blockBreaks none (n + 1) 0 [] c = some (([], 2), c.skip 2) := by
  have hskip : (c.skip 2).rest = ch :: t := by
    rw [Cursor.rest_skip, h]
    rfl
  have hspaces : (c.rest.takeWhile (· == ' ')).length = 2 := by
    rw [h]
    have hspace : (ch == ' ') = false := by
      refine beq_eq_false_iff_ne.2 ?_
      rintro rfl
      cases hch
    simp [textIndent, hspace]
  have htab : (c.skip 2).sees 0 '\t' = false :=
    sees_closed (hskip ▸ closed_cons hch t) (by decide)
  rw [blockBreaks, hspaces]
  dsimp only
  rw [htab, Bool.and_false, if_neg Bool.false_ne_true, Cursor.atBreak_cons hskip,
    (isOpen_eq_false.1 hch).2, if_neg Bool.false_ne_true, Cursor.column_skip, hcolumn]
  rfl

/-- What the header says of the indentation. -/
def indentOf (cs : List Char) : Option Nat :=
  if cs.head?.any fun ch => ch == ' ' || isBreak ch then some 2 else none

theorem eq_two_of_indentOf (h : indentOf cs = some n) : n = 2 := by
  unfold indentOf at h
  split at h
  · exact (Option.some.inj h).symm
  · cases h

/-- No indentation is given to a text that starts with neither a break nor a gap. -/
theorem isOpen_of_indentOf {ch : Char} (h : indentOf (ch :: cs) = none)
    (hp : isPrintable ch = true) : isOpen ch = false := by
  unfold indentOf at h
  split at h
  · cases h
  · rename_i hhead
    obtain ⟨hspace, hbreak⟩ := Bool.or_eq_false_iff.1 (Bool.eq_false_iff.2 hhead)
    have hgap : isGap ch = false := Bool.eq_false_iff.2 fun hgap =>
      beq_eq_false_iff_ne.1 hspace (eq_space_of_isGap hp hgap)
    exact isOpen_eq_false.2 ⟨hgap, hbreak⟩

/-- Where the lines of a text are read from; without lines, where the text ends. -/
inductive FirstLine (t : List Char) (c : Cursor) : List Char → Prop where
  | none (rest : c.rest = t) (column : c.column = 0) : FirstLine t c []
  | line {more : List Char} (hne : more ≠ []) (rest : c.rest = literalBody false more ++ t)
      (column : c.column = 2) : FirstLine t c more

/-- The lines of a text are indented. -/
theorem exists_behind {more : List Char} (ht : more = [] → Closed t)
    (hmore : ∀ ch ∈ more.head?, isBreak ch = false) :
    ∃ k, Behind (literalBody true more ++ t) k ∧ ∀ c : Cursor,
      c.rest = literalBody true more ++ t → c.column = 0 → FirstLine t (c.skip k) more := by
  cases more with
  | nil => exact ⟨0, .other t (ht rfl), fun c => .none⟩
  | cons ch more =>
    have hch : isBreak ch = false := hmore ch rfl
    rw [literalBody_char hch]
    refine ⟨2, .line ch _ hch, fun c h hcolumn => .line (List.cons_ne_nil ch more) ?_ ?_⟩
    · rw [literalBody_char hch, Cursor.rest_skip, h]
      rfl
    · rw [Cursor.column_skip, hcolumn]

/-- **The breaks at the start are read**, and the indentation of the first line is found. -/
theorem blockBreaks_start {more : List Char} (ht : more = [] → Closed t) (hne : bs ++ more ≠ [])
    (hbs : ∀ ch ∈ bs, isBreak ch = true) (hmore : ∀ ch ∈ more.head?, isBreak ch = false)
    (hcs : ∀ ch ∈ bs ++ more, isPrintable ch = true)
    (h : c.rest = bs ++ (literalBody true more ++ t)) (hcolumn : c.column = 0) :
    ∃ widest c', blockBreaks (indentOf (bs ++ more)) (c.rest.length + 1) 0 [] c =
        some ((bs, widest), c') ∧
      (indentOf (bs ++ more)).getD (max widest 1) = 2 ∧ FirstLine t c' more := by
  obtain ⟨k, hbehind, hfirst⟩ := exists_behind ht hmore
  cases hindent : indentOf (bs ++ more) with
  | some n =>
    obtain rfl := eq_two_of_indentOf hindent
    have hread : ∀ ch ∈ bs, isBreak ch = true ∧ isPrintable ch = true := fun ch hch =>
      ⟨hbs ch hch, hcs ch (List.mem_append_left more hch)⟩
    have hfuel : bs.length < c.rest.length + 1 := by
      rw [h, List.length_append]
      omega
    obtain ⟨widest, hblock⟩ := blockBreaks_row hbehind hread h hcolumn hfuel
    exact ⟨widest, _, hblock, rfl, hfirst _ rfl rfl⟩
  | none =>
    -- the text starts with its first line, and that with no space
    obtain ⟨ch, rest, heq⟩ := List.exists_cons_of_ne_nil hne
    rw [heq] at hindent hcs
    have hopen := isOpen_of_indentOf hindent (hcs ch List.mem_cons_self)
    have hch : isBreak ch = false := (isOpen_eq_false.1 hopen).2
    cases bs with
    | cons x bs =>
      cases heq
      rw [hbs ch List.mem_cons_self] at hch
      cases hch
    | nil =>
      obtain rfl : more = ch :: rest := heq
      have hrest : c.rest = textIndent ++ ch :: (literalBody false rest ++ t) := by
        rw [h, List.nil_append, literalBody_char hch]
        rfl
      refine ⟨2, c.skip 2, blockBreaks_seen hopen hrest hcolumn _, rfl,
        .line (List.cons_ne_nil ch rest) ?_ ?_⟩
      · rw [literalBody_char hch, Cursor.rest_skip, hrest]
        rfl
      · rw [Cursor.column_skip, hcolumn]

/-- The break that ends a text which has none of its own. -/
def lastBreak (cs : List Char) : List Char :=
  if cs.getLast?.any isBreak then [] else ['\n']

theorem lastBreak_eq_nil (front : List Char) (hne : bs ≠ []) (hbs : ∀ ch ∈ bs, isBreak ch = true) :
    lastBreak (front ++ bs) = [] := by
  rw [lastBreak, List.getLast?_append, List.getLast?_eq_some_getLast hne, Option.some_or,
    Option.any_some, hbs _ (List.getLast_mem hne), if_pos rfl]

/-- **The lines are read**, and chomped as the header says. -/
theorem blockLines_text {more : List Char} (ht : Closed t) (hne : more ≠ [])
    (hmore : ∀ ch ∈ more.head?, isBreak ch = false)
    (hcs : ∀ ch ∈ more, isPrintable ch = true)
    (h : c.rest = literalBody false more ++ (lastBreak more ++ t)) (hcolumn : c.column = 2)
    (hfuel : c.rest.length < fuel) :
    ∃ b c', blockLines false 2 fuel { breaks := bs } c = some (b, c') ∧
      b.chomped (chompOf (bs ++ more)) = bs ++ more ∧ c'.rest = t ∧ c'.column = 0 := by
  obtain ⟨body, row, rfl, hbody, hrow⟩ := exists_row_last isBreak more
  have hbodyne : body ≠ [] := by
    rintro rfl
    obtain ⟨x, row, rfl⟩ := List.exists_cons_of_ne_nil hne
    have hbreak := hmore x rfl
    rw [hrow x List.mem_cons_self] at hbreak
    cases hbreak
  obtain ⟨last, hlast⟩ : ∃ last, body.getLast? = some last :=
    ⟨_, List.getLast?_eq_some_getLast hbodyne⟩
  have hlast' : isBreak last = false := hbody last hlast
  rw [List.head?_append_of_ne_nil _ hbodyne] at hmore
  have hsolid : Solid isBreak body := ⟨hbodyne, hmore, hbody⟩
  have hprint : ∀ ch ∈ body, isPrintable ch = true := fun ch hch =>
    hcs ch (List.mem_append_left row hch)
  have hheld : ({ breaks := bs } : Block).held = bs := rfl
  have hend : (bs ++ body).getLast? = some last := by
    rw [List.getLast?_append, hlast]
    rfl
  cases row with
  | nil =>
    have hfeed : ∀ ch ∈ ['\n'], isBreak ch = true ∧ isPrintable ch = true :=
      List.forall_mem_singleton.2 ⟨rfl, rfl⟩
    have hbreak : lastBreak (body ++ []) = ['\n'] := by
      rw [lastBreak, List.append_nil, hlast, Option.any_some, hlast']
      rfl
    rw [hbreak, List.append_nil] at h
    obtain ⟨gapped, c', hread, hplace⟩ := @blockLines_body c t [] body fuel { breaks := bs } '\n' ht
      hsolid hprint hfeed h hcolumn hfuel
    rw [List.append_nil]
    exact ⟨_, c', hread, chomped_strip hend hlast', hplace⟩
  | cons y row =>
    have hbreak : lastBreak (body ++ y :: row) = [] :=
      lastBreak_eq_nil body (List.cons_ne_nil y row) hrow
    rw [hbreak, List.nil_append, literalBody_last hrow, List.append_assoc] at h
    obtain ⟨gapped, c', hread, hplace⟩ := @blockLines_body c t row body fuel { breaks := bs } y ht
      hsolid hprint (fun ch hch => ⟨hrow ch hch, hcs ch (List.mem_append_right body hch)⟩) h hcolumn
      hfuel
    rw [← List.append_assoc]
    exact ⟨_, c', hread, chomped_breaks hend hlast' hrow, hplace⟩

/-- What is written of a text: the header, the lines, and the end of the last. -/
theorem literal_eq (cs : List Char) : literal cs =
    (if cs.head?.any fun ch => ch == ' ' || isBreak ch then ['2'] else []) ++
      ((chompOf cs).sign ++ '\n' :: (literalBody true cs ++ lastBreak cs)) := by
  rw [literal, literalHints_eq, lastBreak]
  simp

/-- **A text in lines of its own is read** up to the end of its last line. -/
theorem block_literal (ht : Closed t) (hcs : ∀ ch ∈ cs, isPrintable ch = true) (hne : cs ≠ [])
    (h : c.rest = literal cs ++ t) :
    ∃ c', block false 0 c = some (cs, c') ∧ c'.rest = t ∧ c'.column = 0 := by
  rw [literal_eq, List.append_assoc, List.append_assoc, List.cons_append, List.append_assoc] at h
  obtain ⟨c₁, hheader, h₁⟩ := blockHeader_eq h
  have hindent : (if cs.head?.any fun ch => ch == ' ' || isBreak ch then some 2 else none).map
      (fun n => (max (0 : Int) 0).toNat + n) = indentOf cs := by
    unfold indentOf
    split <;> rfl
  unfold block
  rw [hheader]
  dsimp only [Option.bind_eq_bind, Option.bind_some]
  rw [endLine?_eq h₁, hindent]
  dsimp only [Option.bind_some]
  obtain ⟨bs, more, rfl, hbs, hmore⟩ := exists_row isBreak cs
  rw [literalBody_breaks hbs, List.append_assoc]
  have hlast : more = [] → lastBreak (bs ++ more) = [] := by
    rintro rfl
    rw [List.append_nil] at hne ⊢
    exact lastBreak_eq_nil [] hne hbs
  obtain ⟨widest, c₂, hbreaks, hwidth, hfirst⟩ := @blockBreaks_start
    (c₁.below 1 (bs ++ (literalBody true more ++ (lastBreak (bs ++ more) ++ t)))) _ bs more
    (fun hmore => by rwa [hlast hmore]) hne hbs hmore hcs rfl rfl
  rw [hbreaks]
  dsimp only [Option.bind_some]
  rw [show (max ((0 : Int) + 1).toNat 1) = 1 from rfl, hwidth]
  cases hfirst with
  | none hrest hcolumn =>
    have hchomped : ({ breaks := bs } : Block).chomped (chompOf (bs ++ [])) = bs ++ [] := by
      rw [List.append_nil] at hne ⊢
      rw [show chompOf bs = .keep from chompOf_keep [] hne hbs (.inl rfl)]
      rfl
    rw [hlast rfl, List.nil_append] at hrest
    rw [blockLines_stops hcolumn]
    dsimp only [Option.bind_some]
    rw [hchomped]
    exact ⟨c₂, rfl, hrest, hcolumn⟩
  | line hsome hrest hcolumn =>
    have hsame : lastBreak (bs ++ more) = lastBreak more := by
      rw [lastBreak, List.getLast?_append_of_ne_nil _ hsome]
      rfl
    rw [hsame] at hrest
    obtain ⟨b, c', hread, hchomped, hend⟩ := blockLines_text ht hsome hmore
      (fun ch hch => hcs ch (List.mem_append_right bs hch)) hrest hcolumn (Nat.lt_succ_self _)
    rw [hread]
    dsimp only [Option.bind_some]
    rw [hchomped]
    exact ⟨c', rfl, hend⟩

end RevisionWatch.Yaml
