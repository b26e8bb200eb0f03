import RevisionWatch.Proofs.Yaml.Styles
import RevisionWatch.Yaml.Token
/-!
# Lines of keys and values

What the lexer makes of a mapping that is written one member a line. A line is three tokens that are
met, the key, the colon and the value, and the mark of the key that is put in front once the colon
is met (`run_row`); the first line opens the block, and the end of the text closes it
(`tokens?_rows`).
-/

namespace RevisionWatch.Yaml

namespace Lexer

variable {l l₁ : Lexer} {t v : List Char} {ch : Char} {n : Nat} {column : Int}

/-! ## 1. To the next token -/

/-- What starts with a token, and not with a blank, a comment, or the mark of the byte order. -/
def Starts (t : List Char) : Prop :=
  ∀ ch ∈ t.head?, isOpen ch = false ∧ ch ≠ '#' ∧ ch ≠ byteOrderMark

theorem Starts.closed (h : Starts t) : Closed t := fun ch hch => (h ch hch).1

theorem refresh_eq (hcandidate : l.candidate = none) (hsuspended : l.suspended = []) :
    l.refresh = some l := by
  unfold refresh
  rw [hcandidate, hsuspended]
  obtain ⟨place, tokens, indent, outer, keyAllowed, candidate, suspended⟩ := l
  cases hcandidate
  cases hsuspended
  rfl

theorem refresh_fresh {k : Candidate} (hcandidate : l.candidate = some k)
    (hfresh : Candidate.isStale k l.place = false) (hsuspended : l.suspended = []) :
    l.refresh = some l := by
  unfold refresh
  rw [hcandidate, hsuspended, refreshed, hfresh]
  obtain ⟨place, tokens, indent, outer, keyAllowed, candidate, suspended⟩ := l
  cases hcandidate
  cases hsuspended
  rfl

theorem unindent_eq (h : l.indent ≤ column) : l.unindent column = l := by
  unfold unindent
  rw [closeBlocks, if_pos (by simp [h])]

theorem sees_starts {c : Cursor} {x : Char} (h : Starts c.rest)
    (hx : x = '#' ∨ x = byteOrderMark) : c.sees 0 x = false := by
  cases hrest : c.rest with
  | nil =>
    unfold Cursor.sees Cursor.ahead
    rw [hrest]
    rfl
  | cons ch t =>
    obtain ⟨-, hhash, hmark⟩ := h ch (by rw [hrest]; rfl)
    rw [Cursor.sees_cons hrest, beq_eq_false_iff_ne]
    rcases hx with rfl | rfl <;> assumption

/-- The gaps that are passed are spaces and tabs. -/
theorem skipWhile_row {c : Cursor} {tabs : Bool} {k : Nat} (ht : Starts t)
    (h : c.rest = List.replicate k ' ' ++ t) :
    (c.skipWhile fun ch => ch == ' ' || (tabs && ch == '\t')) = c.skip k := by
  have hrun : c.rest.takeWhile (fun ch => ch == ' ' || (tabs && ch == '\t')) =
      List.replicate k ' ' := by
    rw [h]
    refine takeWhile_row (fun ch hch => by rw [List.eq_of_mem_replicate hch]; rfl) fun ch hch => ?_
    have hgap : isGap ch = false := (isOpen_eq_false.1 (ht ch hch).1).1
    obtain ⟨hspace, htab⟩ := Bool.or_eq_false_iff.1 hgap
    rw [hspace, htab, Bool.and_false]
    rfl
  rw [Cursor.skipWhile, hrun, List.length_replicate]

theorem skipComment_starts {c : Cursor} (h : Starts c.rest) : c.skipComment = c := by
  rw [Cursor.skipComment, sees_starts h (.inl rfl), if_neg Bool.false_ne_true]

/-- **Spaces are passed** up to a token. -/
theorem passBlanks_spaces {k : Nat} (ht : Starts t) (h : l.place.rest = List.replicate k ' ' ++ t)
    (n : Nat) : passBlanks (n + 1) l = { l with place := l.place.skip k } := by
  have hmark : l.place.sees 0 byteOrderMark = false := by
    cases k with
    | zero => exact sees_starts (show Starts l.place.rest from h ▸ ht) (.inr rfl)
    | succ k =>
      rw [Cursor.sees_cons (show l.place.rest = ' ' :: (List.replicate k ' ' ++ t) from h)]
      decide
  have hskip := Cursor.rest_skip_append h
  rw [List.length_replicate] at hskip
  have hstarts : Starts (l.place.skip k).rest := hskip ▸ ht
  rw [passBlanks, hmark, Bool.and_false, if_neg Bool.false_ne_true]
  rw [skipWhile_row ht h, skipComment_starts hstarts, (at_closed hstarts.closed).2,
    if_neg Bool.false_ne_true]

/-- **The end of a line is passed** up to a token. -/
theorem passBlanks_lineEnd (ht : Starts t) (h : l.place.rest = '\n' :: t) (hflow : l.suspended = [])
    (n : Nat) :
    passBlanks (n + 2) l = { l with place := l.place.below 1 t, keyAllowed := true } := by
  have hmark : l.place.sees 0 byteOrderMark = false := by
    rw [Cursor.sees_cons h]
    decide
  have hrow (tabs : Bool) :
      (l.place.skipWhile fun ch => ch == ' ' || (tabs && ch == '\t')) = l.place := by
    rw [Cursor.skipWhile, h, List.takeWhile_cons_of_neg (by cases tabs <;> decide)]
    rfl
  have hcomment : l.place.skipComment = l.place := by
    rw [Cursor.skipComment, Cursor.sees_cons h, if_neg (by decide)]
  have hallowed : (l.keyAllowed || !l.inFlow) = true := by
    rw [inFlow, hflow]
    cases l.keyAllowed <;> rfl
  rw [passBlanks, hmark, Bool.and_false, if_neg Bool.false_ne_true]
  rw [hrow, hcomment, Cursor.atBreak_cons h, if_pos (by decide), Cursor.skipBreak,
    Cursor.breakLine_of_printable h (by decide) (by decide), hallowed,
    @passBlanks_spaces _ t 0 ht rfl n]
  rfl

/-- **One token** is met. -/
theorem run_token (hpass : passBlanks (n + 1) l = l₁) (hrefresh : l₁.refresh = some l₁)
    (hindent : l₁.indent ≤ l₁.place.column) (hrest : l₁.place.rest = ch :: t) :
    run (n + 1) l = (l₁.tokenAt ch).bind (run n) := by
  rw [run, hpass, hrefresh]
  dsimp only [Option.bind_eq_bind, Option.bind_some]
  rw [unindent_eq hindent, hrest]

/-! ## 2. The tokens of a line -/

/-- A character with which no other token begins. -/
theorem tokenAt_plain (hflow : l.suspended = []) (hdoc : l.place.atDocumentMark = false)
    (hmark : "#,[]\x7b\x7d&*!|>'\"%@\x60".toList.contains ch = false) (hhyphen : ch ≠ '-')
    (hopen : isOpen ch = false) (hquery : ch = '?' ∨ ch = ':' → l.place.isOpenAt 1 = false) :
    l.tokenAt ch = l.plainScalar := by
  have hflow' : l.inFlow = false := by
    rw [inFlow, hflow]
    rfl
  obtain ⟨hgap, hbreak⟩ := isOpen_eq_false.1 hopen
  simp at hmark
  unfold tokenAt startsPlain
  rw [hflow', hdoc, hgap, hbreak]
  by_cases hcase : ch = '?' ∨ ch = ':'
  · have hnext := hquery hcase
    rw [hnext]
    rcases hcase with rfl | rfl <;> simp
  · obtain ⟨hquery, hcolon⟩ := not_or.1 hcase
    simp [hmark, hhyphen, hquery, hcolon]

theorem tokenAt_colon (hdoc : l.place.atDocumentMark = false) (hopen : l.place.isOpenAt 1 = true) :
    l.tokenAt ':' = l.valueMark := by
  unfold tokenAt
  rw [hdoc, hopen]
  simp

theorem tokenAt_quote (hdoc : l.place.atDocumentMark = false) :
    l.tokenAt '\'' = l.quotedScalar .singleQuoted ∧
      l.tokenAt '"' = l.quotedScalar .doubleQuoted := by
  unfold tokenAt
  rw [hdoc]
  exact ⟨by simp, by simp⟩

theorem tokenAt_bar (hflow : l.suspended = []) (hdoc : l.place.atDocumentMark = false) :
    l.tokenAt '|' = l.blockScalar .literal := by
  unfold tokenAt
  rw [hdoc, inFlow, hflow]
  simp

theorem dropCandidate_eq (h : l.candidate = none) : l.dropCandidate = some l := by
  obtain ⟨place, tokens, indent, outer, keyAllowed, candidate, suspended⟩ := l
  cases h
  rfl

theorem noteCandidate_eq (hallowed : l.keyAllowed = true) (h : l.candidate = none) :
    l.noteCandidate = some { l with
      candidate := some (Candidate.mk l.place l.tokens.length
        (!l.inFlow && l.indent == (l.place.column : Int))) } := by
  unfold noteCandidate
  rw [if_pos hallowed, dropCandidate_eq h]
  rfl

theorem noteCandidate_self (hallowed : l.keyAllowed = false) : l.noteCandidate = some l := by
  unfold noteCandidate
  rw [hallowed, if_neg Bool.false_ne_true]

section Scalars

variable {cs : List Char} {p : Cursor} {style : Style} {broken : Bool}

theorem plainScalar_eq (hnote : l.noteCandidate = some l₁)
    (hread : plain l₁.inFlow (l₁.indent + 1) l₁.place = some ((cs, broken), p)) :
    l.plainScalar = some { l₁.emit (.scalar .plain (String.ofList cs)) with
      keyAllowed := broken, place := p } := by
  unfold plainScalar
  rw [hnote]
  dsimp only [Option.bind_eq_bind, Option.bind_some]
  rw [hread]
  rfl

theorem quotedScalar_eq (hnote : l.noteCandidate = some l₁)
    (hread : quoted (style == .singleQuoted) (l₁.place.skip 1) = some (cs, p)) :
    l.quotedScalar style = some { l₁.emit (.scalar style (String.ofList cs)) with
      keyAllowed := false, place := p } := by
  unfold quotedScalar
  rw [hnote]
  dsimp only [Option.bind_eq_bind, Option.bind_some]
  rw [hread]
  rfl

theorem blockScalar_eq (h : l.candidate = none)
    (hread : block (style == .folded) l.indent (l.place.skip 1) = some (cs, p)) :
    l.blockScalar style = some { l.emit (.scalar style (String.ofList cs)) with
      keyAllowed := true, place := p } := by
  unfold blockScalar
  rw [dropCandidate_eq h]
  dsimp only [Option.bind_eq_bind, Option.bind_some]
  rw [hread]
  rfl

end Scalars

/-! ## 3. Values -/

/-- **Inside the outermost mapping**, with no key begun. -/
structure Inside (l : Lexer) : Prop where
  indent : l.indent = 0
  outer : l.outer = [-1]
  candidate : l.candidate = none
  suspended : l.suspended = []

/-- At the start of a line where a key may stand, or at the end of the line before. -/
inductive AtLine (l : Lexer) (t : List Char) : Prop where
  | start (rest : l.place.rest = t) (column : l.place.column = 0) (allowed : l.keyAllowed = true)
  | lineEnd (rest : l.place.rest = '\n' :: t)

theorem passBlanks_line (hline : AtLine l t) (hflow : l.suspended = []) (ht : Starts t) (n : Nat) :
    ∃ p, passBlanks (n + 2) l = { l with place := p, keyAllowed := true } ∧ p.rest = t ∧
      p.column = 0 := by
  cases hline with
  | start rest column allowed =>
    refine ⟨l.place, ?_, rest, column⟩
    rw [passBlanks_spaces (k := 0) ht rest, ← allowed]
    rfl
  | lineEnd rest => exact ⟨l.place.below 1 t, passBlanks_lineEnd ht rest hflow n, rfl, rfl⟩

/-- **A plain text begins a plain scalar**, whatever stands behind its line. -/
theorem tokenAt_bare {more : List Char} (hcs : Bare (ch :: more)) (hopen : isOpen ch = false)
    (hmark : startsAsMark (ch :: more) = false) (hhyphen : ch ≠ '-') (hflow : l.suspended = [])
    (hdoc : l.place.atDocumentMark = false) (h : l.place.rest = ch :: (more ++ t)) :
    l.tokenAt ch = l.plainScalar := by
  obtain ⟨hmark, -⟩ := Bool.or_eq_false_iff.1 hmark
  obtain ⟨hmark, -⟩ := Bool.or_eq_false_iff.1 hmark
  obtain ⟨hmark, hquery⟩ := Bool.or_eq_false_iff.1 hmark
  refine tokenAt_plain hflow hdoc hmark hhyphen hopen fun hcase => ?_
  have hnext : more.head?.all isOpen = false := by
    rcases hcase with rfl | rfl
    · simpa using hquery
    · exact hasKeyMark_eq_false.1 hcs.unkeyed [] more rfl
  rw [Cursor.isOpenAt_one_cons h]
  cases more with
  | nil => cases hnext
  | cons x more => exact hnext

theorem starts_of_mark (h : isOpen ch = false ∧ ch ≠ '#' ∧ ch ≠ byteOrderMark) (u : List Char) :
    Starts (ch :: u) := by
  intro x hx
  cases hx
  exact h

/-- **A value is one token**, in whatever style it is laid out. -/
theorem tokenAt_value {style : Style} {cs w : List Char} (hlaid : Laid style cs w) (hl : Inside l)
    (hallowed : l.keyAllowed = false) (hcolumn : l.place.column ≠ 0) (ht : Starts t)
    (h : l.place.rest = w ++ t) :
    ∃ ch u l', w ++ t = ch :: u ∧ Starts (ch :: u) ∧ l.tokenAt ch = some l' ∧ Inside l' ∧
      AtLine l' t ∧ l'.tokens = .scalar style (String.ofList cs) :: l.tokens := by
  have hdoc : l.place.atDocumentMark = false := Cursor.atDocumentMark_eq_false hcolumn
  have hnote : l.noteCandidate = some l := noteCandidate_self hallowed
  have hcolumn' : (l.place.skip 1).column ≠ 0 := Nat.succ_ne_zero _
  cases hlaid with
  | plain hcs hsolid hmark hhyphen =>
    obtain ⟨ch, more, rfl⟩ := List.exists_cons_of_ne_nil hsolid.nonempty
    have hopen : isOpen ch = false := hsolid.head ch rfl
    have hne : ch ≠ '-' := fun heq => hhyphen (congrArg some heq)
    have hhash : ch ≠ '#' := by
      rintro rfl
      cases hmark
    have hprint : ch ≠ byteOrderMark := by
      rintro rfl
      exact absurd (hcs.printable byteOrderMark (by simp)) (by decide)
    rw [List.append_assoc] at h
    have hread := plain_bare ht.closed hcs hsolid (fun heq => hhash (Option.some.inj heq)) h
      (Nat.pos_of_ne_zero hcolumn)
    have hread' : plain l.inFlow (l.indent + 1) l.place =
        some ((ch :: more, true), (l.place.skip (ch :: more).length).below 1 t) := by
      rw [inFlow, hl.suspended, hl.indent]
      exact hread
    refine ⟨ch, _, _, rfl, starts_of_mark ⟨hopen, hhash, hprint⟩ _,
      (tokenAt_bare hcs hopen hmark hne hl.suspended hdoc h).trans (plainScalar_eq hnote hread'),
      ⟨hl.indent, hl.outer, hl.candidate, hl.suspended⟩, .start rfl rfl rfl, rfl⟩
  | single hcs =>
    obtain ⟨p, hread, hend⟩ := quoted_of_reads (reads_single (t := '\n' :: t) hcs (by simp))
      (c := l.place.skip 1) (by rw [Cursor.rest_skip, h]; simp) hcolumn'
    exact ⟨_, _, _, rfl, starts_of_mark (by decide) _,
      (tokenAt_quote hdoc).1.trans (quotedScalar_eq hnote hread),
      ⟨hl.indent, hl.outer, hl.candidate, hl.suspended⟩, .lineEnd hend, rfl⟩
  | double cs =>
    obtain ⟨p, hread, hend⟩ := quoted_of_reads (reads_double (t := '\n' :: t) (by simp) cs)
      (c := l.place.skip 1) (by rw [Cursor.rest_skip, h]; simp) hcolumn'
    exact ⟨_, _, _, rfl, starts_of_mark (by decide) _,
      (tokenAt_quote hdoc).2.trans (quotedScalar_eq hnote hread),
      ⟨hl.indent, hl.outer, hl.candidate, hl.suspended⟩, .lineEnd hend, rfl⟩
  | literal hne hcs =>
    obtain ⟨p, hread, hend, hcolumn⟩ := block_literal (c := l.place.skip 1) ht.closed hcs hne
      (by rw [Cursor.rest_skip, h]; rfl)
    rw [← hl.indent] at hread
    exact ⟨_, _, _, rfl, starts_of_mark (by decide) _,
      (tokenAt_bar hl.suspended hdoc).trans (blockScalar_eq hl.candidate hread),
      ⟨hl.indent, hl.outer, hl.candidate, hl.suspended⟩, .start hend hcolumn rfl, rfl⟩

theorem run_value {style : Style} {cs w : List Char} (hlaid : Laid style cs w) (hl : Inside l)
    (hallowed : l.keyAllowed = false) (ht : Starts t) (h : l.place.rest = ' ' :: (w ++ t))
    (n : Nat) : ∃ l', run (n + 1) l = run n l' ∧ Inside l' ∧ AtLine l' t ∧
      l'.tokens = .scalar style (String.ofList cs) :: l.tokens := by
  have hrest : (l.place.skip 1).rest = w ++ t := by
    rw [Cursor.rest_skip, h]
    rfl
  obtain ⟨ch, u, l', hw, hstarts, htoken, hl', hline, htokens⟩ :=
    tokenAt_value (l := { l with place := l.place.skip 1 }) hlaid
      ⟨hl.indent, hl.outer, hl.candidate, hl.suspended⟩ hallowed (Nat.succ_ne_zero _) ht hrest
  rw [hw] at h hrest
  refine ⟨l', ?_, hl', hline, htokens⟩
  rw [run_token (passBlanks_spaces (k := 1) hstarts h n) (refresh_eq hl.candidate hl.suspended)
    (by rw [hl.indent]; exact Int.natCast_nonneg _) hrest, htoken]
  rfl

/-! ## 4. Keys -/

/-- **A key that is written as it is.** -/
structure IsKey (key : List Char) : Prop where
  nonempty : key ≠ []
  words : ∀ ch ∈ key, isWord ch = true
  unhyphened : key.head? ≠ some '-'
  short : key.length ≤ keyReach

/-- Between two members: the tokens that the next key puts in front of its mark. -/
inductive Between (l : Lexer) : List Token → Prop where
  | outside (indent : l.indent = -1) (outer : l.outer = []) : Between l [.blockMappingStart]
  | inside (indent : l.indent = 0) (outer : l.outer = [-1]) : Between l []

theorem Between.indent_le {start : List Token} (h : Between l start) : l.indent ≤ 0 := by
  cases h with
  | outside indent => rw [indent]; decide
  | inside indent => rw [indent]

theorem IsKey.starts {key : List Char} (h : IsKey key) (t : List Char) : Starts (key ++ t) := by
  obtain ⟨ch, key, rfl⟩ := List.exists_cons_of_ne_nil h.nonempty
  have hch : isWord ch = true := h.words ch List.mem_cons_self
  exact starts_of_mark ⟨(of_isWord hch).2.1, ne_of_isWord hch (by decide),
    ne_of_isWord hch (by decide)⟩ _

/-- A key is no mark of a document. -/
theorem IsKey.atDocumentMark {key : List Char} (hkey : IsKey key) (h : l.place.rest = key ++ t) :
    l.place.atDocumentMark = false := by
  obtain ⟨ch, key, rfl⟩ := List.exists_cons_of_ne_nil hkey.nonempty
  have hhyphen : ch ≠ '-' := fun heq => hkey.unhyphened (congrArg some heq)
  have hdot : ch ≠ '.' := ne_of_isWord (hkey.words ch List.mem_cons_self) (by decide)
  have hcons : l.place.rest = ch :: (key ++ t) := h
  unfold Cursor.atDocumentMark
  rw [Cursor.sees_cons hcons, Cursor.sees_cons hcons, beq_eq_false_iff_ne.2 hhyphen,
    beq_eq_false_iff_ne.2 hdot, Bool.false_and, Bool.false_and, Bool.false_and, Bool.false_and,
    Bool.or_false, Bool.and_false, Bool.false_and]

/-- The text of a key has been met, and its place is kept in mind. -/
structure Keyed (l l' : Lexer) (key : List Char) : Prop where
  place : l'.place = l.place.skip key.length
  tokens : l'.tokens = .scalar .plain (String.ofList key) :: l.tokens
  indent : l'.indent = l.indent
  outer : l'.outer = l.outer
  suspended : l'.suspended = l.suspended
  candidate : ∃ required, l'.candidate = some ⟨l.place, l.tokens.length, required⟩

/-- **The text of a key is one token.** -/
theorem tokenAt_key {key : List Char} (hkey : IsKey key) (hcandidate : l.candidate = none)
    (hflow : l.suspended = []) (hallowed : l.keyAllowed = true)
    (h : l.place.rest = key ++ ':' :: v) (hv : v.head?.all isOpen = true) :
    ∃ ch u l', key ++ ':' :: v = ch :: u ∧ l.tokenAt ch = some l' ∧ Keyed l l' key := by
  have hdoc := hkey.atDocumentMark h
  have hnote := noteCandidate_eq hallowed hcandidate
  obtain ⟨ch, more, rfl⟩ := List.exists_cons_of_ne_nil hkey.nonempty
  have hch : isWord ch = true := hkey.words ch List.mem_cons_self
  obtain ⟨-, hopen, hmark⟩ := of_isWord hch
  have hhash : (ch :: more).head? ≠ some '#' := fun heq =>
    ne_of_isWord hch (x := '#') (by decide) (Option.some.inj heq)
  have hquery : ¬(ch = '?' ∨ ch = ':') := by
    rintro (rfl | rfl) <;> cases hch
  have hread : plain l.inFlow (l.indent + 1) l.place =
      some ((ch :: more, false), l.place.skip (ch :: more).length) := by
    rw [inFlow, hflow]
    refine plain_key (fun x hx => ⟨(of_isWord (hkey.words x hx)).2.1, ?_⟩) hkey.nonempty hhash hdoc
      h hv
    exact ne_of_isWord (hkey.words x hx) (by decide)
  rw [List.cons_append]
  refine ⟨ch, _, _, rfl, (tokenAt_plain hflow hdoc hmark ?_ hopen ?_).trans
    (plainScalar_eq hnote hread), ⟨rfl, rfl, rfl, rfl, rfl, _, rfl⟩⟩
  · exact fun heq => hkey.unhyphened (congrArg some heq)
  · exact fun hcase => absurd hcase hquery

/-- **The colon puts the mark of its key in front of it**, and opens the block before the first. -/
theorem tokenAt_mark {start old : List Token} {scalar : Token} {k : Candidate}
    (hl : Between l start) (hflow : l.suspended = []) (hk : l.candidate = some k)
    (hcolumn : k.place.column = 0) (hbefore : k.before = old.length)
    (htokens : l.tokens = scalar :: old) (hplace : l.place.column ≠ 0)
    (h : l.place.rest = ':' :: v) (hv : v.head?.all isOpen = true) :
    ∃ l', l.tokenAt ':' = some l' ∧ Inside l' ∧ l'.keyAllowed = false ∧
      l'.place = l.place.skip 1 ∧ l'.tokens = .value :: scalar :: .key :: (start ++ old) := by
  have hdoc : l.place.atDocumentMark = false := Cursor.atDocumentMark_eq_false hplace
  rw [tokenAt_colon hdoc (by rwa [Cursor.isOpenAt_one_cons h]), valueMark, hk]
  dsimp only
  rw [opens, inFlow, hcolumn, hbefore]
  obtain ⟨place, tokens, indent, outer, allowed, candidate, suspended⟩ := l
  cases htokens
  cases hflow
  cases hl with
  | outside indent outer =>
    cases indent
    cases outer
    exact ⟨_, rfl, ⟨rfl, rfl, rfl, rfl⟩, rfl, rfl, by simp [emit, insertAt, indented]⟩
  | inside indent outer =>
    cases indent
    cases outer
    exact ⟨_, rfl, ⟨rfl, rfl, rfl, rfl⟩, rfl, rfl, by simp [emit, insertAt]⟩

/-- **A key and its colon.** -/
theorem run_key {key : List Char} {start : List Token} (hkey : IsKey key) (hl : Between l start)
    (hcandidate : l.candidate = none) (hflow : l.suspended = [])
    (hline : AtLine l (key ++ ':' :: v)) (hv : v.head?.all isOpen = true) (n : Nat) :
    ∃ l', run (n + 3) l = run (n + 1) l' ∧ Inside l' ∧ l'.keyAllowed = false ∧ l'.place.rest = v ∧
      l'.tokens = .value :: .scalar .plain (String.ofList key) :: .key :: (start ++ l.tokens) := by
  obtain ⟨p, hpass, hrest, hcolumn⟩ := passBlanks_line hline hflow (hkey.starts _) (n + 1)
  obtain ⟨ch, u, l₁, hcons, htoken, hkeyed⟩ :=
    tokenAt_key (l := { l with place := p, keyAllowed := true }) hkey hcandidate hflow rfl hrest hv
  have hfirst : run (n + 3) l = run (n + 2) l₁ := by
    rw [run_token hpass (refresh_eq hcandidate hflow) (by rw [hcolumn]; exact hl.indent_le)
      (hrest.trans hcons), htoken]
    rfl
  obtain ⟨required, hk⟩ := hkeyed.candidate
  have hbehind : l₁.place.rest = ':' :: v := by
    rw [hkeyed.place]
    exact Cursor.rest_skip_append hrest
  have hplace : l₁.place.column ≠ 0 := by
    have hlength : 0 < key.length := List.length_pos_iff.2 hkey.nonempty
    rw [hkeyed.place, Cursor.column_skip]
    omega
  have hfresh : Candidate.isStale ⟨p, l.tokens.length, required⟩ l₁.place = false := by
    rw [hkeyed.place]
    simp [Candidate.isStale, hkey.short]
  have hl₁ : Between l₁ start := by
    cases hl with
    | outside indent outer => exact .outside (hkeyed.indent.trans indent) (hkeyed.outer.trans outer)
    | inside indent outer => exact .inside (hkeyed.indent.trans indent) (hkeyed.outer.trans outer)
  have hflow₁ : l₁.suspended = [] := hkeyed.suspended.trans hflow
  obtain ⟨l', hmark, hinside, hallowed, hplace', htokens⟩ :=
    tokenAt_mark hl₁ hflow₁ hk hcolumn rfl hkeyed.tokens hplace hbehind hv
  refine ⟨l', ?_, hinside, hallowed, ?_, htokens⟩
  · have hstarts : Starts (':' :: v) := starts_of_mark (by decide) v
    rw [hfirst, run_token (passBlanks_spaces (k := 0) hstarts hbehind (n + 1))
      (refresh_fresh hk hfresh hflow₁) (Int.le_trans hl₁.indent_le (Int.natCast_nonneg _)) hbehind]
    rw [show ({ l₁ with place := l₁.place.skip 0 } : Lexer) = l₁ from rfl, hmark]
    rfl
  · rw [hplace', Cursor.rest_skip, hbehind]
    rfl

end Lexer

/-! ## 5. Lines -/

/-- A member of a mapping: its key, its value, and how that is laid out. -/
structure Row where
  key : List Char
  style : Style
  text : List Char
  written : List Char

namespace Row

/-- The line of a member. -/
def line (r : Row) : List Char :=
  r.key ++ ':' :: ' ' :: r.written

/-- The tokens of a member. -/
def tokens (r : Row) : List Token :=
  [.key, .scalar .plain (String.ofList r.key), .value, .scalar r.style (String.ofList r.text)]

/-- **The key is written as it is, and the value laid out in its style.** -/
structure Fits (r : Row) : Prop where
  key : Lexer.IsKey r.key
  value : Laid r.style r.text r.written

end Row

namespace Lexer

variable {l : Lexer} {t : List Char} {r : Row} {rows : List Row} {start : List Token} {n : Nat}

theorem starts_rows (h : ∀ r ∈ rows, r.Fits) : Starts (rows.flatMap Row.line) := by
  cases rows with
  | nil => exact fun ch hch => nomatch hch
  | cons r rows =>
    rw [List.flatMap_cons, Row.line, List.append_assoc]
    exact (h r List.mem_cons_self).key.starts _

/-- **A line is three tokens**, and the mark of its key. -/
theorem run_row (hr : r.Fits) (hl : Between l start) (hcandidate : l.candidate = none)
    (hflow : l.suspended = []) (hline : AtLine l (r.line ++ t)) (ht : Starts t) (n : Nat) :
    ∃ l', run (n + 3) l = run n l' ∧ Inside l' ∧ AtLine l' t ∧
      l'.tokens = r.tokens.reverse ++ (start ++ l.tokens) := by
  rw [Row.line, List.append_assoc] at hline
  obtain ⟨l₁, hrun, hinside, hallowed, hrest, htokens⟩ :=
    run_key hr.key hl hcandidate hflow hline rfl n
  obtain ⟨l', hrun', hinside', hline', htokens'⟩ :=
    run_value hr.value hinside hallowed ht hrest n
  refine ⟨l', hrun.trans hrun', hinside', hline', ?_⟩
  rw [htokens', htokens]
  rfl

/-- The block is closed at the end. -/
theorem finish_eq (hl : Inside l) (hcolumn : l.place.column = 0) :
    ∃ l', l.finish = some l' ∧ l'.tokens = .blockEnd :: l.tokens := by
  unfold finish
  rw [hcolumn]
  obtain ⟨place, tokens, indent, outer, allowed, candidate, suspended⟩ := l
  obtain ⟨hindent, houter, hcandidate, hsuspended⟩ := hl
  cases hindent
  cases houter
  cases hcandidate
  cases hsuspended
  exact ⟨_, rfl, rfl⟩

/-- **The end of the text closes the block.** -/
theorem run_end (hl : Inside l) (hline : AtLine l []) (n : Nat) :
    ∃ l', run (n + 2) l = some l' ∧ l'.tokens = .blockEnd :: l.tokens := by
  obtain ⟨p, hpass, hrest, hcolumn⟩ := passBlanks_line hline hl.suspended
    (fun ch hch => nomatch hch) n
  have hrefresh := refresh_eq (l := { l with place := p, keyAllowed := true }) hl.candidate
    hl.suspended
  rw [run, hpass, hrefresh]
  dsimp only [Option.bind_eq_bind, Option.bind_some]
  rw [unindent_eq (by rw [hl.indent]; exact Int.natCast_nonneg _), hrest]
  exact finish_eq (l := { l with place := p, keyAllowed := true })
    ⟨hl.indent, hl.outer, hl.candidate, hl.suspended⟩ hcolumn

/-- **The lines of a mapping are its tokens**, and the end of the block. -/
theorem run_rows (hrows : ∀ r ∈ rows, r.Fits) (hl : Inside l)
    (hline : AtLine l (rows.flatMap Row.line)) (hn : 3 * rows.length + 2 ≤ n) :
    ∃ l', run n l = some l' ∧
      l'.tokens = .blockEnd :: ((rows.flatMap Row.tokens).reverse ++ l.tokens) := by
  induction rows generalizing l n with
  | nil =>
    obtain ⟨n, rfl⟩ : ∃ m, n = m + 2 := ⟨n - 2, by omega⟩
    exact run_end hl hline n
  | cons r rows ih =>
    obtain ⟨hr, hrows⟩ := List.forall_mem_cons.1 hrows
    rw [List.length_cons] at hn
    obtain ⟨n, rfl⟩ : ∃ m, n = m + 3 := ⟨n - 3, by omega⟩
    obtain ⟨l₁, hrun, hinside, hline, htokens⟩ := run_row hr (.inside hl.indent hl.outer)
      hl.candidate hl.suspended hline (starts_rows hrows) n
    obtain ⟨l', hrun', htokens'⟩ := ih (n := n) hrows hinside hline (by omega)
    refine ⟨l', hrun.trans hrun', ?_⟩
    rw [htokens', htokens]
    simp

end Lexer

section Texts

variable {rows : List Row}

theorem length_line {r : Row} (hr : r.Fits) : 4 ≤ r.line.length := by
  have hkey : 0 < r.key.length := List.length_pos_iff.2 hr.key.nonempty
  have hvalue : 0 < r.written.length := List.length_pos_iff.2 hr.value.ne_nil
  unfold Row.line
  simp
  omega

theorem length_lines (hrows : ∀ r ∈ rows, r.Fits) :
    4 * rows.length ≤ (rows.flatMap Row.line).length := by
  induction rows with
  | nil => exact Nat.zero_le _
  | cons r rows ih =>
    obtain ⟨hr, hrows⟩ := List.forall_mem_cons.1 hrows
    have hline := length_line hr
    have hmore := ih hrows
    rw [List.flatMap_cons, List.length_append, List.length_cons]
    omega

theorem allowed_lines (hrows : ∀ r ∈ rows, r.Fits) :
    ∀ ch ∈ rows.flatMap Row.line, isAllowed ch = true := by
  intro ch hch
  obtain ⟨r, hr, hch⟩ := List.mem_flatMap.1 hch
  have hfits := hrows r hr
  refine isAllowed_of_isPrintable ?_
  rcases List.mem_append.1 hch with hkey | hvalue
  · exact (of_isWord (hfits.key.words ch hkey)).1
  · rcases List.mem_cons.1 hvalue with rfl | hvalue
    · decide
    · rcases List.mem_cons.1 hvalue with rfl | hvalue
      · decide
      · exact hfits.value.printable ch hvalue

/-- **The tokens of a mapping** that is written one member a line. -/
theorem tokens?_rows (hne : rows ≠ []) (hrows : ∀ r ∈ rows, r.Fits) :
    tokens? (String.ofList (rows.flatMap Row.line)) =
      some (.blockMappingStart :: (rows.flatMap Row.tokens ++ [.blockEnd])) := by
  have hstarts := Lexer.starts_rows hrows
  have hmark : withoutMark (rows.flatMap Row.line) = rows.flatMap Row.line := by
    cases hcs : rows.flatMap Row.line with
    | nil => rfl
    | cons ch cs =>
      rw [withoutMark, if_neg]
      exact fun heq => (hstarts ch (by rw [hcs]; rfl)).2.2 (beq_iff_eq.1 heq)
  have hallowed : (rows.flatMap Row.line).all isAllowed = true :=
    List.all_eq_true.2 (allowed_lines hrows)
  have hlength := length_lines hrows
  obtain ⟨r, rows, rfl⟩ := List.exists_cons_of_ne_nil hne
  obtain ⟨hr, hmore⟩ := List.forall_mem_cons.1 hrows
  rw [List.length_cons] at hlength
  obtain ⟨n, hn⟩ : ∃ n, ((r :: rows).flatMap Row.line).length + 1 = n + 3 :=
    ⟨((r :: rows).flatMap Row.line).length - 2, by omega⟩
  let l : Lexer := { place := ⟨(r :: rows).flatMap Row.line, 0, 0, 0⟩ }
  obtain ⟨l₁, hrun, hinside, hline, htokens⟩ := Lexer.run_row (l := l) hr (.outside rfl rfl) rfl rfl
    (.start rfl rfl rfl) (Lexer.starts_rows hmore) n
  obtain ⟨l', hrun', htokens'⟩ := Lexer.run_rows (n := n) hmore hinside hline (by omega)
  unfold tokens?
  rw [String.toList_ofList, hmark]
  dsimp only
  rw [hallowed, if_neg (by decide), hn]
  show (Lexer.run (n + 3) l).map _ = _
  rw [hrun, hrun', Option.map_some, htokens', htokens]
  simp [l]

end Texts

end RevisionWatch.Yaml
