import Mathlib.Data.Nat.Digits.Defs
import Mathlib.Tactic.Ring
import RevisionWatch.Decimal.Digits
import RevisionWatch.Text.Blank
/-!
# Numerals

What `value?` reads in base ten is a row of the ten digits, and its value is that of the row
(`value?_ten`). In any base it reads a `Numeral`, a row of digits of the base with the value of their
row, and nothing else (`value?_eq_some_iff`); where a sign is allowed, there may be a plus in front
(`signed?_eq_some_iff`). The other way round, the digits of a number are read as this number in every
base up to sixteen, with zeros in front and in letters of either case (`value?_numeral`).
-/

namespace RevisionWatch.Decimal

variable {cs : List Char} {n : Nat}

/-! ## 1. Numerals in base ten -/

theorem digitIn?_ten {c : Char} {d : Nat} :
    digitIn? 10 c = some d ↔ c.isDigit = true ∧ d = c.toNat - '0'.toNat := by
  have hrange : c.isDigit = true ↔ '0' ≤ c ∧ c ≤ '9' := by simp [Char.isDigit, Char.le_def]
  unfold digitIn?
  rw [Option.filter_eq_some_iff, decide_eq_true_eq, hrange]
  unfold digit?
  constructor
  · rintro ⟨hd, hlt⟩
    split at hd
    · rename_i hc
      cases hd
      exact ⟨hc, rfl⟩
    · split at hd
      · cases hd
        omega
      · split at hd
        · cases hd
          omega
        · cases hd
  · rintro ⟨hc, rfl⟩
    rw [if_pos hc]
    have hhigh : c.toNat ≤ '9'.toNat := hc.2
    have hnine : '9'.toNat = '0'.toNat + 9 := rfl
    exact ⟨rfl, by omega⟩

theorem valueFrom?_ten : ∀ {cs : List Char} {acc n : Nat}, valueFrom? 10 acc cs = some n ↔
    (∀ c ∈ cs, c.isDigit = true) ∧ n = Nat.ofDigitChars 10 cs acc
  | [], acc, n => by
    rw [valueFrom?, Option.some.injEq, Nat.ofDigitChars_nil]
    exact ⟨fun h => ⟨fun c hc => (nomatch hc), h.symm⟩, fun h => h.2.symm⟩
  | c :: cs, acc, n => by
    rw [valueFrom?, Option.bind_eq_some_iff, List.forall_mem_cons, Nat.ofDigitChars_cons,
      Nat.mul_comm 10 acc]
    constructor
    · rintro ⟨d, hd, h⟩
      obtain ⟨hc, rfl⟩ := digitIn?_ten.1 hd
      obtain ⟨hcs, hn⟩ := valueFrom?_ten.1 h
      exact ⟨⟨hc, hcs⟩, hn⟩
    · rintro ⟨⟨hc, hcs⟩, hn⟩
      exact ⟨_, digitIn?_ten.2 ⟨hc, rfl⟩, valueFrom?_ten.2 ⟨hcs, hn⟩⟩

/-- **A numeral in base ten is a row of digits of its value.** -/
theorem value?_ten : value? 10 cs = some n ↔
    cs ≠ [] ∧ (∀ c ∈ cs, c.isDigit = true) ∧ n = Nat.ofDigitChars 10 cs 0 := by
  unfold value?
  cases cs with
  | nil => exact ⟨fun h => (nomatch h), fun h => absurd rfl h.1⟩
  | cons c cs =>
    rw [List.isEmpty_cons, if_neg Bool.false_ne_true, valueFrom?_ten]
    exact ⟨fun h => ⟨List.cons_ne_nil c cs, h⟩, And.right⟩

theorem toList_text (n : Nat) : (text n).toList = Nat.toDigits 10 n :=
  String.toList_ofList

theorem isDigit_of_mem_text {c : Char} (h : c ∈ (text n).toList) : c.isDigit = true := by
  rw [toList_text] at h
  exact Nat.isDigit_of_mem_toDigits (by decide) (by decide) h

theorem text_ne_nil (n : Nat) : (text n).toList ≠ [] := by
  rw [toList_text]
  exact Nat.toDigits_ne_nil

/-- A number is read from its decimal text. -/
theorem value?_text (n : Nat) : value? 10 (text n).toList = some n := by
  rw [toList_text, value?_ten]
  exact ⟨Nat.toDigits_ne_nil, fun c => Nat.isDigit_of_mem_toDigits (by decide) (by decide),
    Nat.ofDigitChars_ten_toDigits.symm⟩

/-! ## 2. Numerals in any base -/

section Rows

variable {base limit : Nat}

/-- **A numeral**: a digit and more, each of the base, with the value of their row. -/
inductive Numeral (base : Nat) : List Char → Nat → Prop where
  | intro {cs : List Char} {ds : List Nat} (nonempty : cs ≠ [])
      (digits : cs.map digit? = ds.map some)
      (small : ∀ d ∈ ds, d < base) : Numeral base cs (Nat.ofDigits base ds.reverse)

theorem digitIn?_eq_some_iff {c : Char} {d : Nat} :
    digitIn? base c = some d ↔ digit? c = some d ∧ d < base := by
  simp [digitIn?, Option.filter_eq_some_iff]

/-- A digit behind a number is the last digit of the next. -/
theorem ofDigits_step (ds : List Nat) (acc d : Nat) :
    Nat.ofDigits base (ds.reverse ++ [acc * base + d]) =
      Nat.ofDigits base ((d :: ds).reverse ++ [acc]) := by
  simp only [List.reverse_cons, Nat.ofDigits_append, Nat.ofDigits_singleton, List.length_append,
    List.length_reverse, List.length_singleton, pow_succ]
  ring

theorem valueFrom?_eq_some_iff : ∀ {cs : List Char} {acc n : Nat},
    valueFrom? base acc cs = some n ↔
      ∃ ds : List Nat, cs.map digit? = ds.map some ∧ (∀ d ∈ ds, d < base) ∧
        n = Nat.ofDigits base (ds.reverse ++ [acc])
  | [], acc, n => by
    rw [valueFrom?, Option.some.injEq]
    constructor
    · rintro rfl
      exact ⟨[], rfl, fun d hd => (nomatch hd), Nat.ofDigits_singleton.symm⟩
    · rintro ⟨ds, hds, -, rfl⟩
      obtain rfl := List.map_eq_nil_iff.1 hds.symm
      exact Nat.ofDigits_singleton.symm
  | c :: cs, acc, n => by
    rw [valueFrom?, Option.bind_eq_some_iff]
    constructor
    · rintro ⟨d, hd, h⟩
      obtain ⟨hd, hlt⟩ := digitIn?_eq_some_iff.1 hd
      obtain ⟨ds, hds, hsmall, rfl⟩ := valueFrom?_eq_some_iff.1 h
      exact ⟨d :: ds, by rw [List.map_cons, List.map_cons, hd, hds],
        List.forall_mem_cons.2 ⟨hlt, hsmall⟩, ofDigits_step ds acc d⟩
    · rintro ⟨ds, hds, hsmall, rfl⟩
      obtain ⟨d, ds, rfl, hd, hds⟩ := List.map_eq_cons_iff.1 hds.symm
      obtain ⟨hlt, hsmall⟩ := List.forall_mem_cons.1 hsmall
      exact ⟨d, digitIn?_eq_some_iff.2 ⟨hd.symm, hlt⟩,
        valueFrom?_eq_some_iff.2 ⟨ds, hds.symm, hsmall, (ofDigits_step ds acc d).symm⟩⟩

/-- **What is read without a sign is a numeral.** -/
theorem value?_eq_some_iff : value? base cs = some n ↔ Numeral base cs n := by
  have hrow (ds : List Nat) :
      Nat.ofDigits base (ds.reverse ++ [0]) = Nat.ofDigits base ds.reverse := by
    simp [Nat.ofDigits_append]
  unfold value?
  cases cs with
  | nil => exact ⟨fun h => (nomatch h), fun ⟨nonempty, _, _⟩ => absurd rfl nonempty⟩
  | cons c cs =>
    rw [List.isEmpty_cons, if_neg Bool.false_ne_true, valueFrom?_eq_some_iff]
    constructor
    · rintro ⟨ds, hds, hsmall, rfl⟩
      rw [hrow]
      exact .intro (List.cons_ne_nil c cs) hds hsmall
    · rintro ⟨-, hds, hsmall⟩
      exact ⟨_, hds, hsmall, (hrow _).symm⟩

/-- What a numeral consists of. -/
theorem digit?_of_value? (h : value? base cs = some n) {c : Char} (hc : c ∈ cs) :
    ∃ d, digit? c = some d := by
  obtain ⟨-, hds, -⟩ := value?_eq_some_iff.1 h
  have hmem : digit? c ∈ cs.map digit? := List.mem_map_of_mem hc
  rw [hds] at hmem
  obtain ⟨d, -, hd⟩ := List.mem_map.1 hmem
  exact ⟨d, hd.symm⟩

/-- **What is read where a sign is allowed** is a numeral whose value fits its word, with a plus in
    front of it or none. -/
theorem signed?_eq_some_iff : signed? base limit cs = some n ↔
    n < limit ∧ ∃ sign digits, (sign = [] ∨ sign = ['+']) ∧ cs = sign ++ digits ∧
      Numeral base digits n := by
  have hbounded (cs : List Char) :
      bounded? base limit cs = some n ↔ n < limit ∧ Numeral base cs n := by
    rw [bounded?, Option.filter_eq_some_iff, value?_eq_some_iff, decide_eq_true_eq, and_comm]
  unfold signed?
  split
  · rename_i cs
    rw [hbounded]
    refine and_congr_right fun _ => ⟨fun h => ⟨['+'], cs, .inr rfl, rfl, h⟩, ?_⟩
    rintro ⟨sign, digits, rfl | rfl, hcs, h⟩
    · -- a plus is no digit
      rw [List.nil_append] at hcs
      subst hcs
      obtain ⟨d, hd⟩ := digit?_of_value? (value?_eq_some_iff.2 h) List.mem_cons_self
      have hplus : digit? '+' = none := by decide
      rw [hplus] at hd
      cases hd
    · cases hcs
      exact h
  · rename_i hplus
    rw [hbounded]
    refine and_congr_right fun _ => ⟨fun h => ⟨[], cs, .inl rfl, rfl, h⟩, ?_⟩
    rintro ⟨sign, digits, rfl | rfl, rfl, h⟩
    · exact h
    · exact absurd rfl (hplus digits)

/-- A numeral without a sign is read where a sign is allowed. -/
theorem signed?_of_value? (h : value? base cs = some n) (hn : n < limit) :
    signed? base limit cs = some n :=
  signed?_eq_some_iff.2 ⟨hn, [], cs, .inl rfl, rfl, value?_eq_some_iff.1 h⟩

end Rows

/-! ## 3. The digits of a number -/

section Written

variable {base : Nat}

/-- The digits are digits. -/
theorem digitIn?_digitChar (hb : base ≤ 16) {d : Nat} (hd : d < base) :
    digitIn? base (Nat.digitChar d) = some d := by
  have hall : ∀ d < 16, digit? (Nat.digitChar d) = some d := by decide
  have hdigit : digit? (Nat.digitChar d) = some d := hall d (Nat.lt_of_lt_of_le hd hb)
  simp [digitIn?, hdigit, hd]

theorem valueFrom?_append (cs ds : List Char) (acc : Nat) :
    valueFrom? base acc (cs ++ ds) = (valueFrom? base acc cs).bind (valueFrom? base · ds) := by
  induction cs generalizing acc with
  | nil => rfl
  | cons c cs ih => simp [valueFrom?, ih, Option.bind_assoc]

theorem valueFrom?_toDigits (hb : 1 < base) (hb' : base ≤ 16) (n : Nat) :
    valueFrom? base 0 (Nat.toDigits base n) = some n := by
  induction n using Nat.strongRecOn with
  | ind n ih =>
    rw [Nat.toDigits_eq_if hb]
    split
    · rename_i hlt
      simp [valueFrom?, digitIn?_digitChar hb' hlt]
    · rename_i hle
      have hpos : 0 < n := Nat.lt_of_lt_of_le (Nat.lt_of_succ_lt hb) (Nat.le_of_not_lt hle)
      have hmod : n % base < base := Nat.mod_lt n (Nat.lt_of_succ_lt hb)
      have hdiv : n / base * base + n % base = n := by
        rw [Nat.mul_comm]
        exact Nat.div_add_mod n base
      rw [valueFrom?_append, ih (n / base) (Nat.div_lt_self hpos hb)]
      simp [valueFrom?, digitIn?_digitChar hb' hmod, hdiv]

theorem exists_digitChar (hb : 1 < base) {c : Char} {n : Nat} (h : c ∈ Nat.toDigits base n) :
    ∃ d < base, c = Nat.digitChar d := by
  induction n using Nat.strongRecOn with
  | ind n ih =>
    rw [Nat.toDigits_eq_if hb] at h
    split at h
    · rename_i hlt
      exact ⟨n, hlt, List.mem_singleton.1 h⟩
    · rename_i hle
      have hpos : 0 < n := Nat.lt_of_lt_of_le (Nat.lt_of_succ_lt hb) (Nat.le_of_not_lt hle)
      rcases List.mem_append.1 h with hfront | hlast
      · exact ih (n / base) (Nat.div_lt_self hpos hb) hfront
      · exact ⟨n % base, Nat.mod_lt n (Nat.lt_of_succ_lt hb), List.mem_singleton.1 hlast⟩

/-- A zero stands in front only of zero. -/
theorem head?_toDigits {n : Nat} (h : (Nat.toDigits 10 n).head? = some '0') : n = 0 := by
  induction n using Nat.strongRecOn with
  | ind n ih =>
    rw [Nat.toDigits_eq_if (by decide)] at h
    split at h
    · rename_i hlt
      have hall : ∀ n < 10, Nat.digitChar n = '0' → n = 0 := by decide
      exact hall n hlt (Option.some.inj h)
    · rename_i hle
      have hfront : (Nat.toDigits 10 (n / 10)).head? = some '0' := by
        cases hcs : Nat.toDigits 10 (n / 10) with
        | nil => exact absurd hcs Nat.toDigits_ne_nil
        | cons c cs =>
          rw [hcs] at h
          exact h
      have hzero := ih (n / 10) (Nat.div_lt_self (by omega) (by decide)) hfront
      omega

/-- Zeros in front do not count. -/
theorem valueFrom?_zeros (hb : 0 < base) (zeros : Nat) (cs : List Char) :
    valueFrom? base 0 (List.replicate zeros '0' ++ cs) = valueFrom? base 0 cs := by
  induction zeros with
  | zero => rfl
  | succ zeros ih =>
    have hzero : digitIn? base '0' = some 0 := by
      have hdigit : digit? '0' = some 0 := by decide
      simp [digitIn?, hdigit, hb]
    simp [List.replicate_succ, valueFrom?, hzero, ih]

/-- The case of a letter does not count. -/
theorem digit?_lowerChar (c : Char) : digit? (Text.lowerChar c) = digit? c := by
  have hall : ∀ n < 91, 65 ≤ n →
      digit? (Text.lowerChar (Char.ofNat n)) = digit? (Char.ofNat n) := by
    decide
  by_cases hc : 'A' ≤ c ∧ c ≤ 'Z'
  · have hlow : 65 ≤ c.toNat := hc.1
    have hhigh : c.toNat ≤ 90 := hc.2
    have hcase := hall c.toNat (by omega) hlow
    rwa [Char.ofNat_toNat] at hcase
  · unfold Text.lowerChar
    rw [if_neg (by simpa using hc)]

theorem valueFrom?_map_lowerChar (cs : List Char) (acc : Nat) :
    valueFrom? base acc (cs.map Text.lowerChar) = valueFrom? base acc cs := by
  induction cs generalizing acc with
  | nil => rfl
  | cons c cs ih => simp [valueFrom?, digitIn?, digit?_lowerChar, ih]

/-- **A number is read from its digits**, zeros in front and letters of either case. -/
theorem value?_numeral (hb : 1 < base) (hb' : base ≤ 16) {zeros : Nat}
    (h : cs.map Text.lowerChar = List.replicate zeros '0' ++ Nat.toDigits base n) :
    value? base cs = some n := by
  have hne : cs ≠ [] := by
    rintro rfl
    have hnil : Nat.toDigits base n = [] := (List.append_eq_nil_iff.1 h.symm).2
    exact Nat.toDigits_ne_nil hnil
  unfold value?
  rw [if_neg (by simpa using hne), ← valueFrom?_map_lowerChar, h,
    valueFrom?_zeros (Nat.lt_of_succ_lt hb), valueFrom?_toDigits hb hb']

/-- A digit is a letter or one of the ten, so it is no blank and stands in one byte. -/
theorem toNat_of_digit? {c : Char} {d : Nat} (h : digit? c = some d) :
    48 ≤ c.toNat ∧ c.toNat ≤ 57 ∨ 97 ≤ c.toNat ∧ c.toNat ≤ 102 ∨ 65 ≤ c.toNat ∧ c.toNat ≤ 70 := by
  unfold digit? at h
  split at h
  · rename_i hc
    exact .inl hc
  · split at h
    · rename_i hc
      exact .inr (.inl hc)
    · split at h
      · rename_i hc
        exact .inr (.inr hc)
      · cases h

end Written

end RevisionWatch.Decimal
