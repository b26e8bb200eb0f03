import Mathlib.Data.String.Basic
import RevisionWatch.Json.Printer
import RevisionWatch.Proofs.Decimal.Digits
import RevisionWatch.Proofs.Json.Taking
import RevisionWatch.Proofs.Text.Lines
/-!
# What is written spells a tree

A value that is written without blanks spells a tree (`Prints`), whatever stands behind it that
could not continue a number. The text of the tree is the text that was written, be it of quotes,
controls or any other characters (`textBody_rawOf`), its number is the natural number
(`value?_numeralOf`), and an object has its members in the order they were given
(`prints_object`).
-/

namespace RevisionWatch.Json

open Bytes (ofChars ofChars_append ofText ofText_append)

/-! ## 1. Texts -/

/-- The bytes between the quotes of a text. -/
def rawOf (s : String) : Bytes :=
  ofChars (s.toList.flatMap fun c => (writeChar c).toList)

theorem ofText_writeText (s : String) : ofText (writeText s) = quote :: (rawOf s ++ [quote]) := by
  have hfold (cs : List Char) (out : String) :
      (cs.foldl (fun out c => out ++ writeChar c) out).toList =
        out.toList ++ cs.flatMap fun c => (writeChar c).toList := by
    induction cs generalizing out with
    | nil => simp
    | cons c cs ih => simp [ih]
  have hlist : (writeText s).toList =
      '"' :: ((s.toList.flatMap fun c => (writeChar c).toList) ++ ['"']) := by
    unfold writeText
    rw [String.foldl_eq_foldl_toList, String.toList_append, hfold]
    rfl
  rw [Bytes.ofText_eq_ofChars, hlist, ← List.singleton_append, ofChars_append, ofChars_append]
  rfl

/-- The character has an escape of its own. -/
def isEscaped (c : Char) : Bool :=
  c == '"' || c == '\\' || c < ' '

/-- **An escape stands for its character.** They are gone through one by one. -/
theorem escape_writeChar {c : Char} (hc : isEscaped c = true) :
    ∃ e, ofChars (writeChar c).toList = 0x5C :: e ∧ ∀ rest,
      escape (e ++ rest) = .ok (String.utf8EncodeChar c, rest) := by
  have hall : ∀ n < 93, isEscaped (Char.ofNat n) = true →
      (ofChars (writeChar (Char.ofNat n)).toList).head? = some 0x5C ∧
        escape (ofChars (writeChar (Char.ofNat n)).toList).tail =
          .ok (String.utf8EncodeChar (Char.ofNat n), []) := by
    decide +kernel
  have hsmall : c.toNat < 93 := by
    simp only [isEscaped, Bool.or_eq_true, beq_iff_eq, decide_eq_true_eq] at hc
    rcases hc with (rfl | rfl) | hlt
    · decide
    · decide
    · exact Nat.lt_trans hlt (by decide)
  have hchar := hall c.toNat hsmall
  rw [Char.ofNat_toNat] at hchar
  obtain ⟨hhead, htail⟩ := hchar hc
  obtain ⟨e, he⟩ := List.head?_eq_some_iff.1 hhead
  rw [he] at htail
  exact ⟨e, he, fun rest => escape_closed htail rest⟩

/-- A character without an escape is written as it stands, in bytes that stand for themselves. -/
theorem plain_writeChar {c : Char} (hc : isEscaped c = false) :
    ofChars (writeChar c).toList = String.utf8EncodeChar c ∧
      ∀ b ∈ String.utf8EncodeChar c, b ≠ quote ∧ b ≠ 0x5C ∧ ¬ b < 0x20 := by
  have hparts : c ≠ '"' ∧ c ≠ '\\' ∧ ¬ c < ' ' := by
    simpa [isEscaped, and_assoc] using hc
  obtain ⟨hquote, hslash, hlow⟩ := hparts
  have hcontrol {d : Char} (hd : d < ' ') : c ≠ d := fun h => hlow (h ▸ hd)
  refine ⟨?_, fun b hb => ?_⟩
  · unfold writeChar
    rw [if_neg (by simpa using hquote), if_neg (by simpa using hslash),
      if_neg (by simpa using hcontrol (by decide)), if_neg (by simpa using hcontrol (by decide)),
      if_neg (by simpa using hcontrol (by decide)), if_neg (by simpa using hcontrol (by decide)),
      if_neg (by simpa using hcontrol (by decide)), if_neg hlow, Char.toString_eq_singleton,
      String.toList_singleton]
    exact List.flatMap_singleton ..
  · have hchar {d : Char} (hd : d.toNat < 0x80) (hbd : b.toNat = d.toNat) : c = d :=
      Char.toNat_inj.1 ((Bytes.utf8EncodeChar_of_small hb (hbd ▸ hd)).2.trans hbd)
    refine ⟨fun h => ?_, fun h => ?_, fun h => ?_⟩
    · exact hquote (hchar (by decide) (by rw [h]; rfl))
    · exact hslash (hchar (by decide) (by rw [h]; rfl))
    · have hb32 : b.toNat < 32 := h
      have hnat := (Bytes.utf8EncodeChar_of_small hb (by omega)).2
      exact hlow (show c.toNat < 32 by omega)

/-- Bytes that stand for themselves are read as they are. -/
theorem textBytes_plain : ∀ {bs : Bytes}, (∀ b ∈ bs, b ≠ quote ∧ b ≠ 0x5C ∧ ¬ b < 0x20) →
    ∀ (fuel acc rest : Bytes), bs.length ≤ fuel.length →
      textBytes fuel acc (bs ++ rest) = textBytes (fuel.drop bs.length) (bs.reverse ++ acc) rest
  | [], _, _, _, _, _ => rfl
  | b :: bs, hbs, fuel, acc, rest, hf => by
    obtain ⟨⟨hquote, hslash, hlow⟩, hmore⟩ := List.forall_mem_cons.1 hbs
    cases fuel with
    | nil => cases hf
    | cons f fuel =>
      rw [List.cons_append, textBytes, if_neg (by simpa using hquote), if_neg (by simpa using hslash),
        if_neg hlow, textBytes_plain hmore fuel (b :: acc) rest (Nat.le_of_succ_le_succ hf)]
      simp

/-- **The bytes of a text are read as its characters**, one by one. -/
theorem textBytes_written (cs : List Char) : ∀ (fuel acc rest : Bytes),
    (ofChars (cs.flatMap fun c => (writeChar c).toList)).length < fuel.length →
      textBytes fuel acc (ofChars (cs.flatMap fun c => (writeChar c).toList) ++ quote :: rest) =
        .ok (acc.reverse ++ ofChars cs, rest) := by
  induction cs with
  | nil =>
    intro fuel acc rest hf
    cases fuel with
    | nil => cases hf
    | cons f fuel => simp [ofChars, textBytes]
  | cons c cs ih =>
    intro fuel acc rest hf
    rw [List.flatMap_cons, ofChars_append] at hf ⊢
    rw [List.append_assoc]
    have hcons : ofChars (c :: cs) = String.utf8EncodeChar c ++ ofChars cs := rfl
    cases hc : isEscaped c with
    | true =>
      obtain ⟨e, he, hread⟩ := escape_writeChar hc
      rw [he] at hf ⊢
      cases fuel with
      | nil => cases hf
      | cons f fuel =>
        rw [List.cons_append, textBytes, if_neg (by decide), if_pos (by decide), hread]
        dsimp only
        rw [ih fuel _ rest (by simp at hf; omega), hcons]
        simp
    | false =>
      obtain ⟨he, hplain⟩ := plain_writeChar hc
      rw [he] at hf ⊢
      have hle : (String.utf8EncodeChar c).length ≤ fuel.length := by
        rw [List.length_append] at hf
        omega
      rw [textBytes_plain hplain fuel acc _ hle, ih _ _ rest ?_, hcons]
      · simp
      · rw [List.length_append] at hf
        rw [List.length_drop]
        omega

/-- **A text that is written is read again.** -/
theorem textBody_written (s : String) (rest : Bytes) :
    textBody (rawOf s ++ quote :: rest) = .ok (s, rest) := by
  unfold textBody
  have hread := textBytes_written s.toList (rawOf s ++ quote :: rest) [] rest (by simp [rawOf])
  show (textBytes (rawOf s ++ quote :: rest) [] (rawOf s ++ quote :: rest) >>= _) = _
  rw [rawOf] at hread ⊢
  rw [hread, ok_bind]
  dsimp only
  rw [List.reverse_nil, List.nil_append, ← Bytes.ofText_eq_ofChars, Bytes.toText?_ofText]

theorem textBody_rawOf (s : String) : TextBody (rawOf s) ∧ rawText? (rawOf s) = some s := by
  obtain ⟨raw, heq, hraw, hs⟩ := textBody_sound (textBody_written s [])
  cases List.append_cancel_right heq
  exact ⟨hraw, hs⟩

/-! ## 2. Numbers -/

/-- The digits of a number, from the first to the last. -/
def digitsOf (n : Nat) : List Nat :=
  (Nat.toDigits 10 n).map fun c => c.toNat - '0'.toNat

/-- A zero stands in front only of zero. -/
theorem head?_digitsOf {n : Nat} (h : (digitsOf n).head? = some 0) : n = 0 := by
  unfold digitsOf at h
  rw [List.head?_map, Option.map_eq_some_iff] at h
  obtain ⟨c, hc, hvalue⟩ := h
  have hdigit : c.isDigit = true :=
    Nat.isDigit_of_mem_toDigits (by decide) (by decide) (List.mem_of_mem_head? hc)
  have hzero : c = '0' := by
    simp only [Char.isDigit, Bool.and_eq_true, decide_eq_true_eq] at hdigit
    have hlow : 48 ≤ c.toNat := hdigit.1
    have hsub : c.toNat - 48 = 0 := hvalue
    have hcode : c.toNat = 48 := by omega
    rw [← Char.ofNat_toNat c, hcode]
  exact Decimal.head?_toDigits (hzero ▸ hc)

/-- Digits that give a number that fits are taken one and all. -/
theorem fill_digits {limit n : Nat} : ∀ (cs : List Char) (s : Nat), Nat.ofDigitChars 10 cs s = n →
    n < limit → fill limit s (cs.map fun c => c.toNat - '0'.toNat) = (n, [])
  | [], s, h, _ => by
    cases h
    rfl
  | c :: cs, s, h, hn => by
    rw [Nat.ofDigitChars_cons, Nat.mul_comm] at h
    have hle (cs : List Char) (s : Nat) : s ≤ Nat.ofDigitChars 10 cs s := by
      induction cs generalizing s with
      | nil => exact Nat.le_refl _
      | cons c cs ih =>
        rw [Nat.ofDigitChars_cons]
        exact Nat.le_trans (by omega) (ih _)
    have hstep := hle cs (s * 10 + (c.toNat - '0'.toNat))
    rw [h] at hstep
    rw [List.map_cons, fill, if_pos (Nat.lt_of_le_of_lt hstep hn)]
    exact fill_digits cs _ h hn

/-- The number with the digits of a natural number. -/
def numeralOf (n : Nat) : Numeral :=
  ⟨false, digitsOf n, none, none⟩

theorem value?_numeralOf {n : Nat} (h : n < Decimal.word64) :
    (numeralOf n).value? = some (.integer n) := by
  have hfill : fill Decimal.word64 0 (digitsOf n) = (n, []) :=
    fill_digits _ 0 Nat.ofDigitChars_ten_toDigits h
  unfold Numeral.value? numeralOf
  dsimp only
  rw [hfill]
  rfl

/-- The byte could not continue a number of digits. -/
def endsNumber (b : UInt8) : Bool :=
  (digit? b).isNone && b != 0x2E && b != 0x65 && b != 0x45

/-- What stands behind a number that is at its end. -/
def Apart (rest : Bytes) : Prop :=
  ∀ b ∈ rest.head?, endsNumber b = true

/-- The byte of a digit. -/
theorem exists_digitByte {c : Char} (hc : c.isDigit = true) : ∃ b : UInt8,
    String.utf8EncodeChar c = [b] ∧ digit? b = some (c.toNat - '0'.toNat) ∧ leadOf b = .digit ∧
      isBlank b = false := by
  have hall : ∀ n < 58, 48 ≤ n → String.utf8EncodeChar (Char.ofNat n) = [UInt8.ofNat n] ∧
      digit? (UInt8.ofNat n) = some (n - 48) ∧ leadOf (UInt8.ofNat n) = .digit ∧
        isBlank (UInt8.ofNat n) = false := by
    decide
  obtain ⟨hlow, hhigh⟩ : 48 ≤ c.toNat ∧ c.toNat < 58 := by
    simp only [Char.isDigit, Bool.and_eq_true, decide_eq_true_eq] at hc
    exact ⟨hc.1, Nat.lt_succ_of_le hc.2⟩
  have hchar := hall c.toNat hhigh hlow
  rw [Char.ofNat_toNat] at hchar
  exact ⟨_, hchar⟩

theorem digitsFrom_written {cs : List Char} (hcs : ∀ c ∈ cs, c.isDigit = true) {rest : Bytes}
    (hrest : Apart rest) (acc : List Nat) : digitsFrom acc (ofChars cs ++ rest) =
      (acc.reverse ++ cs.map fun c => c.toNat - '0'.toNat, rest) := by
  induction cs generalizing acc with
  | nil =>
    cases rest with
    | nil => simp [ofChars, digitsFrom]
    | cons b rest =>
      have hb : endsNumber b = true := hrest b rfl
      have hnone : digit? b = none := by
        simp only [endsNumber, Bool.and_eq_true, Option.isNone_iff_eq_none] at hb
        exact hb.1.1.1
      simp [ofChars, digitsFrom, hnone]
  | cons c cs ih =>
    obtain ⟨hc, hmore⟩ := List.forall_mem_cons.1 hcs
    obtain ⟨b, hbytes, hdigit, -⟩ := exists_digitByte hc
    have hcons : ofChars (c :: cs) = [b] ++ ofChars cs := by
      rw [← hbytes]
      rfl
    rw [hcons, List.append_assoc, List.singleton_append, digitsFrom, hdigit]
    dsimp only
    rw [ih hmore]
    simp

/-- **A natural number that is written is read again**, in front of what could not continue it. -/
theorem numeral_written (short : Fault) (n : Nat) {rest : Bytes} (hrest : Apart rest) :
    numeral short false (ofText (Decimal.text n) ++ rest) = .ok (numeralOf n, rest) := by
  have hdigits : digits (ofText (Decimal.text n) ++ rest) = (digitsOf n, rest) := by
    rw [Bytes.ofText_eq_ofChars, Decimal.toList_text]
    exact digitsFrom_written (fun c => Nat.isDigit_of_mem_toDigits (by decide) (by decide)) hrest []
  have hne : digitsOf n ≠ [] := mt List.map_eq_nil_iff.1 Nat.toDigits_ne_nil
  have hwhole : wholePart short (ofText (Decimal.text n) ++ rest) = .ok (digitsOf n, rest) := by
    unfold wholePart
    rw [someDigits_eq_ok.2 ⟨hdigits, hne⟩, ok_bind]
    dsimp only
    split
    · rename_i d ds hzero
      have h0 := head?_digitsOf (n := n) (by rw [hzero]; rfl)
      rw [h0] at hzero
      cases hzero
    · rfl
  unfold numeral
  rw [hwhole, ok_bind]
  cases rest with
  | nil => rfl
  | cons b rest =>
    have hb : endsNumber b = true := hrest b rfl
    simp only [endsNumber, Bool.and_eq_true, bne_iff_ne] at hb
    obtain ⟨⟨⟨-, hpoint⟩, hsmall⟩, hlarge⟩ := hb
    have hexponent : exponentPart short (b :: rest) = .ok (none, b :: rest) := by
      rw [exponentPart.eq_def]
      dsimp only
      rw [if_neg (by simpa using ⟨hsmall, hlarge⟩)]
    dsimp only
    split
    · rename_i heq
      exact absurd (List.cons.inj heq).1 hpoint
    · show (exponentPart short (b :: rest) >>= _) = _
      rw [hexponent]
      rfl

/-! ## 3. Values -/

/-- **What is written of a value spells a tree**, in front of what could not continue a number. -/
def Prints (v : Value) (t : Tree) : Prop :=
  ∀ ⦃rest⦄, Apart rest → Spells (ofText v.write ++ rest) (.value t) rest

theorem prints_text (s : String) : Prints (.text s) (.text (rawOf s)) := by
  intro rest _
  refine .text (b := quote) ?_ (by decide) (textBody_rawOf s).1
  show dropBlanks (ofText (writeText s) ++ rest) = _
  rw [ofText_writeText, List.cons_append, dropBlanks_cons_of_not_blank (by decide)]
  simp

theorem prints_boolean (b : Bool) : Prints (.boolean b) (.boolean b) := by
  intro rest _
  cases b with
  | false => exact .false rfl (by decide) (afterWord_eq_ok.2 rfl)
  | true => exact .true rfl (by decide) (afterWord_eq_ok.2 rfl)

theorem prints_natural (n : Nat) : Prints (.natural n) (.number (numeralOf n)) := by
  intro rest hrest
  have hread := numeral_written .malformed n hrest
  show Spells (ofText (Decimal.text n) ++ rest) _ rest
  obtain ⟨c, cs, hcs⟩ := List.exists_cons_of_ne_nil (Nat.toDigits_ne_nil (b := 10) (n := n))
  have hc : c ∈ Nat.toDigits 10 n := hcs ▸ List.mem_cons_self
  obtain ⟨b, hb, -, hlead, hblank⟩ :=
    exists_digitByte (Nat.isDigit_of_mem_toDigits (by decide) (by decide) hc)
  have hbytes : ofText (Decimal.text n) = b :: ofChars cs := by
    rw [Bytes.ofText_eq_ofChars, Decimal.toList_text, hcs, ofChars, List.flatMap_cons, hb]
    rfl
  rw [hbytes, List.cons_append] at hread ⊢
  exact .digit (dropBlanks_cons_of_not_blank hblank _) hlead hread

/-- What is written of a member spells it. -/
def PrintsMember (p : String × Value) (m : Bytes × Tree) : Prop :=
  m.1 = rawOf p.1 ∧ Prints p.2 m.2

/-- Members that are written one behind another. The comma in front of all but the first is part of
    what is spelled. -/
theorem spells_writeMembers {ps : List (String × Value)} {ms : List (Bytes × Tree)}
    (h : List.Forall₂ PrintsMember ps ms) (hne : ps ≠ []) : ∀ (first : Bool) (rest : Bytes),
      Spells ((if first then [] else [comma]) ++
        (ofText (Value.writeMembers ps) ++ closeObject :: rest)) (.members first ms) rest := by
  induction h with
  | nil => exact absurd rfl hne
  | @cons p m ps ms hm hms ih =>
    intro first rest
    obtain ⟨key, v⟩ := p
    obtain ⟨raw, t⟩ := m
    obtain ⟨rfl, hv⟩ := hm
    -- what stands behind the value
    obtain ⟨back, hwritten, hapart, hback⟩ : ∃ back, ofText (Value.writeMembers ((key, v) :: ps)) ++
        closeObject :: rest = quote :: (rawOf key ++ quote :: colon :: (ofText v.write ++ back)) ∧
          Apart back ∧ Spells back (.members false ms) rest := by
      cases hms with
      | nil =>
        refine ⟨closeObject :: rest, ?_, fun b hb => ?_, .endMembers rfl⟩
        · simp [Value.writeMembers, ofText_append, ofText_writeText]
          rfl
        · cases hb
          rfl
      | @cons p' m' ps' ms' _ _ =>
        refine ⟨comma :: (ofText (Value.writeMembers (p' :: ps')) ++ closeObject :: rest), ?_,
          fun b hb => ?_, ih (List.cons_ne_nil p' ps') false rest⟩
        · simp [Value.writeMembers, ofText_append, ofText_writeText]
          rfl
        · cases hb
          rfl
    obtain ⟨hraw, -⟩ := textBody_rawOf key
    rw [hwritten]
    cases first with
    | true => exact .member (.opening _ rfl) hraw rfl (hv hapart) hback
    | false => exact .member (.parted _ _ rfl rfl) hraw rfl (hv hapart) hback

/-- **An object that is written spells its members**, in their order. -/
theorem prints_object {ps : List (String × Value)} {ms : List (Bytes × Tree)}
    (h : List.Forall₂ PrintsMember ps ms) (hne : ps ≠ []) : Prints (.object ps) (.object ms) := by
  intro rest _
  have hms := spells_writeMembers h hne true rest
  refine .object (b := openObject) ?_ (by decide) hms
  show dropBlanks (ofText ("\x7b" ++ Value.writeMembers ps ++ "\x7d") ++ rest) = _
  rw [ofText_append, ofText_append]
  simp
  rfl

/-- What is written of a value is a text of its tree. -/
theorem Prints.isText {v : Value} {t : Tree} (h : Prints v t) : IsText (ofText v.write) t := by
  refine ⟨[], ?_, rfl⟩
  have hs := @h [] fun b hb => nomatch hb
  rwa [List.append_nil] at hs

end RevisionWatch.Json
