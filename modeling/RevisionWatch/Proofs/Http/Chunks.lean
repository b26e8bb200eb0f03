import RevisionWatch.Proofs.Decimal.Digits
import RevisionWatch.Proofs.Http.Framing
import RevisionWatch.Proofs.Text.Blank
import RevisionWatch.Proofs.Text.Lines
/-!
# The grammar of chunks

The bytes that are read as chunks, said in one equation (`Parting`): blocks of a line, its end, data
and a line end, then a line of size zero, its end, and anything. A line gives a size if it is a text
on one line that spells the size (`SpellsSize`): a hexadecimal numeral with a plus in front or none,
blanks around it, and behind it nothing or a semicolon and what may follow that.

Bytes that are no longer than the largest array are read as chunks if and only if they can be parted
so, and then in one way only (`chunks_eq_ok_iff_parted`).
-/

namespace RevisionWatch.Http

open Bytes (CutAt crlf ofChars ofText)

/-! ## 1. Lines that give a size -/

/-- **The characters of a size.** -/
inductive SpellsSize (n : Nat) : List Char → Prop where
  | intro {before sign digits after extension : List Char}
      (blank : ∀ c ∈ before ++ after, Text.isBlank c = true) (signed : sign = [] ∨ sign = ['+'])
      (numeral : Decimal.Numeral 16 digits n) (word : n < Decimal.word64)
      (parted : extension = [] ∨ extension.head? = some ';') :
      SpellsSize n (before ++ (sign ++ digits) ++ after ++ extension)

/-- A line, without its end, that gives a size. -/
structure GivesSize (n : Nat) (line : Bytes) : Prop where
  text : ∃ cs, line = ofChars cs ∧ SpellsSize n cs
  unbroken : ¬ crlf <:+: line

section Sizes

variable {n : Nat} {line : Bytes} {cs digits sign : List Char}

/-- A digit stands for itself: it is no blank, no plus and no semicolon. -/
theorem plain_of_numeral (h : Decimal.Numeral 16 digits n) :
    ∀ c ∈ digits, Text.isBlank c = false ∧ c ≠ ';' := by
  intro c hc
  obtain ⟨d, hd⟩ := Decimal.digit?_of_value? (Decimal.value?_eq_some_iff.2 h) hc
  have hrange := Decimal.toNat_of_digit? hd
  constructor
  · simp only [Text.isBlank, Bool.or_eq_false_iff, Bool.and_eq_false_iff, decide_eq_false_iff_not,
      beq_eq_false_iff_ne]
    omega
  · rintro rfl
    have hnat : (';').toNat = 59 := rfl
    omega

/-- So it is with a sign in front. -/
theorem plain_of_signed (hsign : sign = [] ∨ sign = ['+']) (h : Decimal.Numeral 16 digits n) :
    ∀ c ∈ sign ++ digits, Text.isBlank c = false ∧ c ≠ ';' := by
  intro c hc
  rcases List.mem_append.1 hc with hc | hc
  · rcases hsign with rfl | rfl
    · cases hc
    · obtain rfl := List.mem_singleton.1 hc
      decide
  · exact plain_of_numeral h c hc

/-- What is spelled is read. -/
theorem SpellsSize.read (h : SpellsSize n cs) :
    Decimal.signed? 16 Decimal.word64 (Text.trimChars (cs.takeWhile (· != ';'))) = some n := by
  obtain ⟨blank, signed, numeral, word, parted⟩ := h
  rename_i before sign digits after extension
  have hplain := plain_of_signed signed numeral
  have hfront : ∀ c ∈ before ++ (sign ++ digits) ++ after, (c != ';') = true := by
    intro c hc
    refine bne_iff_ne.2 ?_
    rintro rfl
    have hblank : Text.isBlank ';' = false := by decide
    simp only [List.mem_append] at hc blank hplain
    rcases hc with (hc | hc) | hc
    · exact absurd (blank _ (.inl hc)) (by rw [hblank]; exact Bool.false_ne_true)
    · exact (hplain _ hc).2 rfl
    · exact absurd (blank _ (.inr hc)) (by rw [hblank]; exact Bool.false_ne_true)
  have hcut : (before ++ (sign ++ digits) ++ after ++ extension).takeWhile (· != ';') =
      before ++ (sign ++ digits) ++ after := by
    rw [List.takeWhile_append_of_pos hfront]
    rcases parted with rfl | hhead
    · simp
    · obtain ⟨more, rfl⟩ := List.head?_eq_some_iff.1 hhead
      simp
  have htrim : Text.trimChars (before ++ (sign ++ digits) ++ after) = sign ++ digits :=
    Text.trimChars_around (fun c hc => blank c (List.mem_append_left _ hc))
      (fun c hc => blank c (List.mem_append_right _ hc))
      (fun c hc => (hplain c (List.mem_of_mem_head? hc)).1)
      (fun c hc => (hplain c (List.mem_of_getLast? hc)).1)
  rw [hcut, htrim]
  exact Decimal.signed?_eq_some_iff.2 ⟨word, sign, digits, signed, rfl, numeral⟩

/-- What is read was spelled. -/
theorem spellsSize_of_read
    (h : Decimal.signed? 16 Decimal.word64 (Text.trimChars (cs.takeWhile (· != ';'))) = some n) :
    SpellsSize n cs := by
  obtain ⟨word, sign, digits, signed, htrim, numeral⟩ := Decimal.signed?_eq_some_iff.1 h
  obtain ⟨before, after, hfront, hbefore, hafter⟩ :=
    Text.exists_around_trimChars (cs.takeWhile (· != ';'))
  have hcs : cs = before ++ (sign ++ digits) ++ after ++ cs.dropWhile (· != ';') := by
    rw [← htrim, ← hfront, List.takeWhile_append_dropWhile]
  have hparted : cs.dropWhile (· != ';') = [] ∨ (cs.dropWhile (· != ';')).head? = some ';' := by
    cases hdrop : cs.dropWhile (· != ';') with
    | nil => exact .inl rfl
    | cons c more =>
      right
      have hstop := List.head?_dropWhile_not (· != ';') cs
      rw [hdrop] at hstop
      have hc : c = ';' := by simpa using hstop
      rw [hc]
      rfl
  rw [hcs]
  refine .intro (fun c hc => ?_) signed numeral word hparted
  exact (List.mem_append.1 hc).elim (hbefore c) (hafter c)

/-- **The size of a line is the one that it spells.** -/
theorem chunkSize_eq_ok : chunkSize line = .ok n ↔ ∃ cs, line = ofChars cs ∧ SpellsSize n cs := by
  unfold chunkSize
  constructor
  · intro h
    split at h
    · cases h
    · rename_i s hs
      dsimp only at h
      split at h
      · rename_i m hm
        cases h
        refine ⟨s.toList, ?_, spellsSize_of_read hm⟩
        rw [Bytes.toText?_eq_some_iff.1 hs, Bytes.ofText_eq_ofChars]
      · cases h
  · rintro ⟨cs, rfl, h⟩
    have htext : Bytes.toText? (ofChars cs) = some (String.ofList cs) := by
      rw [Bytes.toText?_eq_some_iff, Bytes.ofText_eq_ofChars, String.toList_ofList]
    rw [htext]
    simp only [String.toList_ofList, h.read]

/-- A line is cut off with its size if it gives the size. -/
theorem cut_and_size_iff {bs rest : Bytes} :
    CutAt crlf bs line rest ∧ chunkSize line = .ok n ↔
      bs = line ++ crlf ++ rest ∧ GivesSize n line := by
  rw [Bytes.cutAt_crlf_iff, chunkSize_eq_ok]
  exact ⟨fun ⟨⟨whole, unbroken⟩, text⟩ => ⟨whole, text, unbroken⟩,
    fun ⟨whole, text, unbroken⟩ => ⟨⟨whole, unbroken⟩, text⟩⟩

/-- What a line gives is said by the bytes from its beginning. -/
theorem GivesSize.unique {n' : Nat} {line' rest rest' : Bytes} (h : GivesSize n line)
    (h' : GivesSize n' line') (hsame : line ++ crlf ++ rest = line' ++ crlf ++ rest') :
    n = n' ∧ line = line' ∧ rest = rest' := by
  obtain ⟨cut, size⟩ := cut_and_size_iff.2 ⟨rfl, h⟩
  obtain ⟨cut', size'⟩ := cut_and_size_iff.2 ⟨hsame, h'⟩
  obtain ⟨hline, hrest⟩ := cut.unique cut'
  rw [hline, size'] at size
  exact ⟨(Except.ok.inj size).symm, hline, hrest⟩

end Sizes

/-! ## 2. Blocks -/

/-- A line and the data behind it. -/
structure Block where
  line : Bytes
  data : Bytes

/-- A block with the two line ends. -/
def Block.bytes (b : Block) : Bytes :=
  b.line ++ crlf ++ b.data ++ crlf

/-- The line gives the size of the data, and there is data. -/
def Block.Sized (b : Block) : Prop :=
  GivesSize b.data.length b.line ∧ b.data ≠ []

/-- **Bytes parted into blocks**, a line of size zero behind them, and what follows. -/
structure Parting (bs : Bytes) where
  blocks : List Block
  last : Bytes
  rest : Bytes
  whole : bs = blocks.flatMap Block.bytes ++ (last ++ crlf ++ rest)
  sized : ∀ b ∈ blocks, b.Sized
  final : GivesSize 0 last

/-- The data of all blocks. -/
def Parting.data {bs : Bytes} (p : Parting bs) : Bytes :=
  p.blocks.flatMap Block.data

section Partings

variable {bs last last' rest rest' out : Bytes} {blocks blocks' : List Block}

/-- A block in front of others. -/
theorem flatMap_bytes_cons (b : Block) (blocks : List Block) (back : Bytes) :
    (b :: blocks).flatMap Block.bytes ++ back =
      b.line ++ crlf ++ (b.data ++ crlf ++ (blocks.flatMap Block.bytes ++ back)) := by
  simp [Block.bytes]

/-- Chunks are blocks. -/
theorem Chunked.parted (h : Chunked bs out) : ∃ p : Parting bs, out = p.data := by
  induction h with
  | @last bs line rest cut size =>
    obtain ⟨whole, final⟩ := cut_and_size_iff.1 ⟨cut, size⟩
    exact ⟨⟨[], line, rest, whole, fun b hb => (nomatch hb), final⟩, rfl⟩
  | @chunk bs line data more body cut size some fits _ ih =>
    obtain ⟨p, rfl⟩ := ih
    obtain ⟨whole, given⟩ := cut_and_size_iff.1 ⟨cut, size⟩
    refine ⟨⟨⟨line, data⟩ :: p.blocks, p.last, p.rest, ?_,
      List.forall_mem_cons.2 ⟨⟨given, some⟩, p.sized⟩, p.final⟩, rfl⟩
    rw [flatMap_bytes_cons, ← p.whole, whole]

/-- Data that stands in bytes no longer than the largest array has an end that fits its word. -/
theorem fits_of_length {line data back : Bytes}
    (hfit : (line ++ crlf ++ (data ++ crlf ++ back)).length < 2 ^ 63) :
    data.length + 2 < Decimal.word64 ∧ back.length < 2 ^ 63 := by
  have hword : Decimal.word64 = 2 * 2 ^ 63 := rfl
  simp only [List.length_append] at hfit
  omega

/-- Blocks are chunks. -/
theorem chunked_of_blocks (sized : ∀ b ∈ blocks, b.Sized) (final : GivesSize 0 last)
    (hfit : (blocks.flatMap Block.bytes ++ (last ++ crlf ++ rest)).length < 2 ^ 63) :
    Chunked (blocks.flatMap Block.bytes ++ (last ++ crlf ++ rest)) (blocks.flatMap Block.data) := by
  induction blocks with
  | nil =>
    obtain ⟨cut, size⟩ := cut_and_size_iff.2 ⟨rfl, final⟩
    exact .last cut size
  | cons b blocks ih =>
    obtain ⟨⟨given, some⟩, sized⟩ := List.forall_mem_cons.1 sized
    rw [flatMap_bytes_cons] at hfit ⊢
    obtain ⟨cut, size⟩ := cut_and_size_iff.2 ⟨rfl, given⟩
    obtain ⟨fits, hback⟩ := fits_of_length hfit
    exact .chunk cut size some fits (ih sized hback)

/-- A line that gives one of the two largest sizes. -/
def GivesWidest (line : Bytes) : Prop :=
  GivesSize (2 ^ 64 - 2) line ∨ GivesSize (2 ^ 64 - 1) line

theorem givesWidest_iff {line : Bytes} :
    GivesWidest line ↔ ∃ n, GivesSize n line ∧ Decimal.word64 ≤ n + 2 := by
  constructor
  · rintro (h | h)
    · exact ⟨_, h, by decide⟩
    · exact ⟨_, h, by decide⟩
  · rintro ⟨n, h, hwide⟩
    have hlt : n < Decimal.word64 := by
      obtain ⟨_, -, ⟨_, _, _, word, _⟩⟩ := h.text
      exact word
    have hword : Decimal.word64 = 2 ^ 64 := rfl
    obtain rfl | rfl : n = 2 ^ 64 - 2 ∨ n = 2 ^ 64 - 1 := by omega
    · exact .inl h
    · exact .inr h

/-- **Sums overflow behind blocks**, at a line that gives one of the two largest sizes. -/
theorem overflowing_iff (hfit : bs.length < 2 ^ 63) :
    Overflowing bs ↔ ∃ (blocks : List Block) (line rest : Bytes),
      bs = blocks.flatMap Block.bytes ++ (line ++ crlf ++ rest) ∧ (∀ b ∈ blocks, b.Sized) ∧
        GivesWidest line := by
  constructor
  · intro h
    clear hfit
    induction h with
    | @here bs line rest n cut size wide =>
      obtain ⟨whole, given⟩ := cut_and_size_iff.1 ⟨cut, size⟩
      exact ⟨[], line, rest, whole, fun b hb => (nomatch hb), givesWidest_iff.2 ⟨n, given, wide⟩⟩
    | @behind bs line data more cut size some fits _ ih =>
      obtain ⟨blocks, last, rest, whole', sized, widest⟩ := ih
      obtain ⟨whole, given⟩ := cut_and_size_iff.1 ⟨cut, size⟩
      refine ⟨⟨line, data⟩ :: blocks, last, rest, ?_, List.forall_mem_cons.2 ⟨⟨given, some⟩, sized⟩,
        widest⟩
      rw [flatMap_bytes_cons, ← whole', whole]
  · rintro ⟨blocks, line, rest, rfl, sized, widest⟩
    obtain ⟨n, given, wide⟩ := givesWidest_iff.1 widest
    induction blocks with
    | nil =>
      obtain ⟨cut, size⟩ := cut_and_size_iff.2 ⟨rfl, given⟩
      exact .here cut size wide
    | cons b blocks ih =>
      obtain ⟨⟨given, some⟩, sized⟩ := List.forall_mem_cons.1 sized
      rw [flatMap_bytes_cons] at hfit ⊢
      obtain ⟨cut, size⟩ := cut_and_size_iff.2 ⟨rfl, given⟩
      obtain ⟨fits, hback⟩ := fits_of_length hfit
      exact .behind cut size some fits (ih hback sized)

/-- **Bytes are parted in one way**: where a line ends and which size it gives is said by the bytes,
    so blocks are told apart by their lines. The induction is on the blocks of one side. -/
theorem blocks_unique (sized : ∀ b ∈ blocks, b.Sized) (final : GivesSize 0 last)
    (sized' : ∀ b ∈ blocks', b.Sized) (final' : GivesSize 0 last')
    (h : blocks.flatMap Block.bytes ++ (last ++ crlf ++ rest) =
      blocks'.flatMap Block.bytes ++ (last' ++ crlf ++ rest')) :
    blocks = blocks' ∧ last = last' ∧ rest = rest' := by
  induction blocks generalizing blocks' with
  | nil =>
    cases blocks' with
    | nil =>
      obtain ⟨-, hlast, hrest⟩ := final.unique final' h
      exact ⟨rfl, hlast, hrest⟩
    | cons b' blocks' =>
      obtain ⟨⟨given', some'⟩, -⟩ := List.forall_mem_cons.1 sized'
      rw [flatMap_bytes_cons] at h
      have hlength := (final.unique given' h).1
      exact absurd (List.eq_nil_of_length_eq_zero hlength.symm) some'
  | cons b blocks ih =>
    obtain ⟨⟨given, some⟩, sized⟩ := List.forall_mem_cons.1 sized
    rw [flatMap_bytes_cons] at h
    cases blocks' with
    | nil =>
      have hlength := (given.unique final' h).1
      exact absurd (List.eq_nil_of_length_eq_zero hlength) some
    | cons b' blocks' =>
      obtain ⟨⟨given', -⟩, sized'⟩ := List.forall_mem_cons.1 sized'
      rw [flatMap_bytes_cons] at h
      obtain ⟨hlength, hline, hback⟩ := given.unique given' h
      rw [List.append_assoc b.data, List.append_assoc b'.data] at hback
      obtain ⟨hdata, hback⟩ := List.append_inj hback hlength
      obtain ⟨hblocks, hends⟩ := ih sized sized' (List.append_cancel_left hback)
      have hblock : b = b' := by
        cases b
        cases b'
        exact congr (congrArg Block.mk hline) hdata
      exact ⟨by rw [hblock, hblocks], hends⟩

theorem Parting.unique (p q : Parting bs) : p = q := by
  obtain ⟨blocks, last, rest, whole, sized, final⟩ := p
  obtain ⟨blocks', last', rest', whole', sized', final'⟩ := q
  obtain ⟨rfl, rfl, rfl⟩ := blocks_unique sized final sized' final' (whole.symm.trans whole')
  rfl

/-- **The bytes that are read as chunks** are those that can be parted into blocks, and their data is
    that of the blocks. They can be parted in one way, and the data is no longer than they are. -/
theorem chunks_eq_ok_iff_parted (hfit : bs.length < 2 ^ 63) :
    (∀ out, chunks bs = .ok out ↔ ∃ p : Parting bs, out = p.data) ∧ (∀ p q : Parting bs, p = q) ∧
      ∀ out, chunks bs = .ok out → out.length ≤ bs.length := by
  refine ⟨fun out => ?_, Parting.unique, fun out h => (chunks_eq_ok.1 h).length_le⟩
  rw [chunks_eq_ok]
  refine ⟨Chunked.parted, ?_⟩
  rintro ⟨⟨blocks, last, rest, rfl, sized, final⟩, rfl⟩
  exact chunked_of_blocks sized final hfit

set_option maxRecDepth 10000 in
/-- Data that looks like a last chunk, behind a size with a zero in front and an extension; the last
    size has a plus and blanks. -/
theorem parted_around_line_ends :
    let bs := ofText "05;x\r\n0\r\n\r\n\r\n\t+0 \r\n1\r\n"
    bs.length < 2 ^ 63 ∧ chunks bs = .ok (ofText "0\r\n\r\n") ∧
      (∃ p : Parting bs, ofText "0\r\n\r\n" = p.data) ∧ ∀ p q : Parting bs, p = q := by
  intro bs
  have hfit : bs.length < 2 ^ 63 := by decide
  have hread : chunks bs = .ok (ofText "0\r\n\r\n") := by decide +kernel
  obtain ⟨hparted, hunique, -⟩ := chunks_eq_ok_iff_parted hfit
  exact ⟨hfit, hread, (hparted _).1 hread, hunique⟩

end Partings

end RevisionWatch.Http
