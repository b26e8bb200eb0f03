import RevisionWatch.Proofs.Yaml.Lines
import RevisionWatch.Yaml.Meaning
/-!
# Mappings that are written

What the reader of nodes makes of the tokens of a mapping whose members are scalars: this mapping
(`blockPairs_rows`). So a mapping that is written is read as it was (`of?_writeMapping`).
-/

namespace RevisionWatch.Yaml

variable {rows : List Row} {n : Nat}

/-! ## 1. Nodes -/

/-- The nodes of a member. -/
def Row.pair (r : Row) : Node × Node :=
  (.scalar .plain none (String.ofList r.key), .scalar r.style none (String.ofList r.text))

namespace Remainder

theorem node_scalar (n : Nat) (inBlock indentless : Bool) (style : Style) (text : String)
    (rest : List Token) :
    node (n + 1) inBlock indentless { tokens := .scalar style text :: rest } =
      some (.scalar style none text, { tokens := rest }) := by
  rw [node]
  rfl

/-- One member of a mapping. -/
theorem blockPairs_row (n : Nat) (r : Row) (acc : List (Node × Node)) (rest : List Token) :
    blockPairs (n + 2) acc { tokens := r.tokens ++ rest } =
      blockPairs (n + 1) (r.pair :: acc) { tokens := rest } := by
  let behind : List Token := .scalar r.style (String.ofList r.text) :: rest
  let value : Remainder := { tokens := .value :: behind }
  let front : Remainder :=
    { tokens := .key :: .scalar .plain (String.ofList r.key) :: .value :: behind }
  have hend : front.sees .blockEnd = false := rfl
  have hkey : front.sees .key = true := rfl
  have hfront : front.next.endsBlockItem = false := rfl
  have hvalue : value.sees .value = true := rfl
  have hbehind : value.next.endsBlockItem = false := rfl
  have hread : node (n + 1) true true front.next = some (r.pair.1, value) :=
    node_scalar n true true .plain (String.ofList r.key) (.value :: behind)
  have hread' : node (n + 1) true true value.next = some (r.pair.2, { tokens := rest }) :=
    node_scalar n true true r.style (String.ofList r.text) rest
  show blockPairs (n + 2) acc front = _
  rw [blockPairs, hend, hkey, if_neg Bool.false_ne_true, if_pos rfl]
  dsimp only [Option.bind_eq_bind]
  rw [hfront, if_neg Bool.false_ne_true, hread]
  dsimp only [Option.bind_some]
  rw [hvalue, hbehind, if_neg (by decide), if_neg Bool.false_ne_true, hread']
  rfl

/-- **The members of a mapping are read** in their order, up to the end of the block. -/
theorem blockPairs_rows (acc : List (Node × Node)) (hn : rows.length < n) :
    blockPairs (n + 1) acc { tokens := rows.flatMap Row.tokens ++ [.blockEnd] } =
      some (acc.reverse ++ rows.map Row.pair, { tokens := [] }) := by
  induction rows generalizing acc n with
  | nil =>
    rw [List.map_nil, List.append_nil, blockPairs]
    rfl
  | cons r rows ih =>
    obtain ⟨n, rfl⟩ := Nat.exists_eq_succ_of_ne_zero (Nat.ne_of_gt (Nat.zero_lt_of_lt hn))
    rw [List.flatMap_cons, List.append_assoc, blockPairs_row,
      ih (r.pair :: acc) (Nat.lt_of_succ_lt_succ hn)]
    simp

theorem node_mapping (n : Nat) (indentless : Bool) (rest : List Token) :
    node (n + 1) true indentless { tokens := .blockMappingStart :: rest } =
      (blockPairs n [] { tokens := rest }).bind fun (pairs, r) => some (.mapping pairs, r) := by
  rw [node]
  rfl

theorem length_tokens (rows : List Row) : rows.length ≤ (rows.flatMap Row.tokens).length := by
  induction rows with
  | nil => exact Nat.le_refl 0
  | cons r rows ih =>
    rw [List.flatMap_cons, List.length_append, List.length_cons, Row.tokens, List.length_cons]
    omega

theorem root_rows (rows : List Row) :
    root { tokens := .blockMappingStart :: (rows.flatMap Row.tokens ++ [.blockEnd]) } =
      some (.mapping (rows.map Row.pair), { tokens := [] }) := by
  have hlength := length_tokens rows
  have hfuel : rows.length < 4 * (rows.flatMap Row.tokens ++ [Token.blockEnd]).length + 6 := by
    rw [List.length_append]
    omega
  unfold root
  dsimp only
  rw [List.length_cons]
  show node (4 * (rows.flatMap Row.tokens ++ [Token.blockEnd]).length + 6 + 1 + 1) true false _ = _
  rw [node_mapping, blockPairs_rows [] hfuel]
  rfl

end Remainder

/-! ## 2. Documents -/

/-- **A mapping that is written one member a line is read as it is.** -/
theorem of?_rows (hne : rows ≠ []) (hrows : ∀ r ∈ rows, r.Fits) :
    Document.of? (String.ofList (rows.flatMap Row.line)) =
      some ⟨some (.mapping (rows.map Row.pair)), []⟩ := by
  unfold Document.of?
  rw [tokens?_rows hne hrows]
  dsimp only [Option.bind_eq_bind, Option.bind_some]
  rw [List.isEmpty_cons, if_neg Bool.false_ne_true, Remainder.root_rows]
  rfl

/-! ## 3. Members -/

namespace Entry

variable {e : Entry}

/-- An entry that is no mapping of its own. -/
def IsScalar : Entry → Prop
  | inner _ => False
  | _ => True

/-- The style of a scalar. -/
def style : Entry → Style
  | text s => styleOf s
  | _ => .plain

/-- The characters of a scalar. -/
def spelling : Entry → String
  | text s => s
  | number n => Decimal.text n
  | boolean b => if b then "true" else "false"
  | nothing => "null"
  | inner _ => ""

/-- A scalar as it is laid out. -/
def written : Entry → List Char
  | text s => writeText s
  | e => e.spelling.toList ++ ['\n']

/-- The node of a scalar. -/
def node (e : Entry) : Node :=
  .scalar e.style none e.spelling

theorem write_eq (h : e.IsScalar) (margin : List Char) : e.write margin = ' ' :: e.written := by
  cases e with
  | inner ms => exact h.elim
  | _ => rfl

theorem laid_number (n : Nat) :
    Laid .plain (Decimal.text n).toList ((Decimal.text n).toList ++ ['\n']) := by
  refine laid_word (Decimal.text_ne_nil n) (fun ch hch => ?_) fun hhyphen => ?_
  · simp [isWord, Char.isAlphanum, Decimal.isDigit_of_mem_text hch]
  · exact absurd (Decimal.isDigit_of_mem_text (List.mem_of_mem_head? hhyphen)) (by decide)

/-- **A scalar is laid out in its style.** -/
theorem laid_written (h : e.IsScalar) : Laid e.style e.spelling.toList e.written := by
  cases e with
  | text s => exact laid_writeText s
  | number n => exact laid_number n
  | boolean b =>
    cases b <;> exact laid_word (by decide) (List.all_eq_true.1 (by decide)) (by decide)
  | nothing => exact laid_word (by decide) (List.all_eq_true.1 (by decide)) (by decide)
  | inner ms => exact h.elim

end Entry

/-- The row of a member. -/
def Row.of (m : String × Entry) : Row :=
  ⟨m.1.toList, m.2.style, m.2.spelling.toList, m.2.written⟩

theorem writeMembers_eq {ms : List (String × Entry)} (h : ∀ m ∈ ms, m.2.IsScalar) :
    writeMembers [] ms = (ms.map Row.of).flatMap Row.line := by
  induction ms with
  | nil => rfl
  | cons m ms ih =>
    obtain ⟨hm, hms⟩ := List.forall_mem_cons.1 h
    rw [writeMembers, Entry.write_eq hm, ih hms]
    rfl

/-- **A mapping of scalars is read as it was written**, under keys that are names. -/
theorem of?_writeMapping {ms : List (String × Entry)} (hne : ms ≠ [])
    (hkeys : ∀ m ∈ ms, Lexer.IsKey m.1.toList) (hscalars : ∀ m ∈ ms, m.2.IsScalar) :
    Document.of? (writeMapping ms) = some ⟨some (.mapping (ms.map fun m =>
      (.scalar .plain none m.1, m.2.node))), []⟩ := by
  have hpairs : (ms.map Row.of).map Row.pair = ms.map fun m =>
      (.scalar .plain none m.1, m.2.node) := by
    rw [List.map_map]
    refine List.map_congr_left fun m hm => ?_
    simp [Row.of, Row.pair, Entry.node]
  rw [writeMapping, writeMembers_eq hscalars, of?_rows (by simpa using hne) ?_, hpairs]
  intro r hr
  obtain ⟨m, hm, rfl⟩ := List.mem_map.1 hr
  exact ⟨hkeys m hm, Entry.laid_written (hscalars m hm)⟩

/-! ## 4. Values -/

namespace Entry

variable {n limit : Nat} {wanted : String}

/-- Digits are a number without a mark of its base. -/
theorem magnitude?_digits {cs : List Char} (hcs : ∀ ch ∈ cs, ch.isDigit = true)
    (hzero : hasLeadingZero cs = false) : magnitude? limit cs = Decimal.bounded? 10 limit cs := by
  have hmark {base : Char} (hbase : base.isDigit = false) (ds : List Char) :
      cs ≠ '0' :: base :: ds := by
    rintro rfl
    rw [hcs base (by simp)] at hbase
    cases hbase
  unfold magnitude?
  dsimp only
  split
  · rename_i n hn
    split at hn
    · exact absurd rfl (hmark (by decide) _)
    · exact absurd rfl (hmark (by decide) _)
    · exact absurd rfl (hmark (by decide) _)
    · cases hn
  · rw [hzero, if_neg Bool.false_ne_true]

theorem hasLeadingZero_text (n : Nat) : hasLeadingZero (Decimal.text n).toList = false := by
  have hsign {ch : Char} (hch : ch ∈ (Decimal.text n).toList) :
      (ch == '-' || ch == '+') = false := by
    have hdigit := Decimal.isDigit_of_mem_text hch
    rw [Bool.or_eq_false_iff, beq_eq_false_iff_ne, beq_eq_false_iff_ne]
    constructor <;> rintro rfl <;> exact absurd hdigit (by decide)
  cases hcs : (Decimal.text n).toList with
  | nil => rfl
  | cons ch cs =>
    rw [hcs] at hsign
    rw [hasLeadingZero, unsigned, hsign List.mem_cons_self, if_neg Bool.false_ne_true]
    split
    · -- a zero with more digits behind it
      rename_i x more heq
      have hzero : n = 0 := by
        refine Decimal.head?_toDigits ?_
        rw [← Decimal.toList_text, hcs, heq]
        rfl
      subst hzero
      have hshort : (Decimal.text 0).toList.length = 1 := by decide
      rw [hcs, heq] at hshort
      cases hshort
    · rfl

theorem natural?_text (hn : n < limit) : natural? limit (Decimal.text n).toList = some n := by
  have hmagnitude : magnitude? limit (Decimal.text n).toList = some n := by
    rw [magnitude?_digits (fun ch => Decimal.isDigit_of_mem_text) (hasLeadingZero_text n),
      Decimal.bounded?, Decimal.value?_text, Option.filter_some, decide_eq_true hn, if_pos rfl]
  unfold natural?
  split
  · rename_i heq
    have hplus : '+' ∈ (Decimal.text n).toList := by
      rw [heq]
      exact List.mem_cons_self
    exact absurd (Decimal.isDigit_of_mem_text hplus) (by decide)
  · exact hmagnitude

/-- **A number is read as itself**, if its word can hold it. -/
theorem natural_number (hn : n < limit) (hlimit : limit ≤ Decimal.word64) :
    (number n).node.natural limit wanted = .ok n := by
  have hplain : Node.mayBeNumber (number n).style none = true := rfl
  rw [node, Node.natural, if_pos hplain, spelling, natural?_text (Nat.lt_of_lt_of_le hn hlimit)]
  dsimp only
  rw [if_pos hn]

theorem isAbsent_number (n : Nat) : (number n).node.isAbsent = .ok false := by
  have hne {s : String} (hs : s.toList.all Char.isDigit = false) : Decimal.text n ≠ s := by
    rintro rfl
    rw [List.all_eq_true.2 fun ch => Decimal.isDigit_of_mem_text] at hs
    cases hs
  have hempty : (Decimal.text n).isEmpty = false := by
    rw [Bool.eq_false_iff, ne_eq, String.isEmpty_iff, ← String.toList_eq_nil_iff]
    exact Decimal.text_ne_nil n
  have hnothing : isNothing (Decimal.text n) = false := by
    unfold isNothing
    rw [beq_eq_false_iff_ne.2 (hne (by decide)), beq_eq_false_iff_ne.2 (hne (by decide)),
      beq_eq_false_iff_ne.2 (hne (by decide)), beq_eq_false_iff_ne.2 (hne (by decide))]
    rfl
  show Except.ok ((Decimal.text n).isEmpty || isNothing (Decimal.text n)) = _
  rw [hempty, hnothing]
  rfl

end Entry

end RevisionWatch.Yaml
