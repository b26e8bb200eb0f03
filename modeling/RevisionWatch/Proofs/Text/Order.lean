import Mathlib.Data.String.Basic
import RevisionWatch.Text.Bytes
/-!
# The order of texts is the order of their bytes

Texts are compared character by character, and their UTF-8 forms byte by byte. Both come to the
same (`ofText_le_iff`): of two characters the smaller one has the smaller byte where their forms
first differ, and no form of a character is a beginning of another one's, so what follows the two
characters does not count.
-/

namespace RevisionWatch.Bytes

/-! ## 1. One character -/

/-- Both have a byte where they first differ, and that of the first is the smaller. -/
def Precedes : Bytes → Bytes → Prop
  | a :: x, b :: y => a < b ∨ a = b ∧ Precedes x y
  | _, _ => False

/-- What precedes does so whatever follows. -/
theorem Precedes.append_lt {x y : Bytes} (h : Precedes x y) (u v : Bytes) : x ++ u < y ++ v := by
  induction x generalizing y with
  | nil => exact h.elim
  | cons a x ih =>
    cases y with
    | nil => exact h.elim
    | cons b y =>
      rw [List.cons_append, List.cons_append, List.cons_lt_cons_iff]
      exact h.imp_right fun ⟨hab, hxy⟩ => ⟨hab, ih hxy⟩

/-- A code point has 21 bits at most. -/
theorem codePoint_le (c : Char) : c.val.toNat ≤ 0x10FFFF := by
  have h := c.valid
  simp only [UInt32.isValidChar, Nat.isValidChar] at h
  omega

/-- **Of two characters the form of the smaller one precedes.** A longer form begins with a greater
    byte, and two forms of one length give the digits to the base 64 one by one. -/
theorem utf8EncodeChar_precedes {c d : Char} (h : c < d) :
    Precedes (String.utf8EncodeChar c) (String.utf8EncodeChar d) := by
  have hvw : c.val.toNat < d.val.toNat := h
  have hw : d.val.toNat ≤ 0x10FFFF := codePoint_le d
  have second (n : Nat) : n / 4096 = n / 64 / 64 := (Nat.div_div_eq_div_mul n 64 64).symm
  have third (n : Nat) : n / 262144 = n / 64 / 64 / 64 := by
    rw [Nat.div_div_eq_div_mul, Nat.div_div_eq_div_mul]
  unfold String.utf8EncodeChar
  generalize c.val.toNat = v at *
  generalize d.val.toNat = w at *
  simp only [second, third]
  split_ifs <;>
    simp only [Precedes, UInt8.lt_iff_toNat_lt, ← UInt8.toNat_inj, UInt8.toNat_ofNat'] <;>
    omega

/-! ## 2. Texts -/

/-- The form of a text is the forms of its characters. -/
theorem ofText_eq_ofChars (s : String) : ofText s = ofChars s.toList := by
  have h : s.toList.utf8Encode.data.toList = ofText s := by
    rw [String.utf8Encode_toList]
    rfl
  rw [← h]
  exact List.toList_data_toByteArray

theorem ofChars_append (cs ds : List Char) : ofChars (cs ++ ds) = ofChars cs ++ ofChars ds :=
  List.flatMap_append

theorem ofText_append (s t : String) : ofText (s ++ t) = ofText s ++ ofText t := by
  simp only [ofText_eq_ofChars, String.toList_append, ofChars_append]

/-- Characters are told apart by their bytes. -/
theorem ofChars_injective {cs ds : List Char} (h : ofChars cs = ofChars ds) : cs = ds := by
  have htext (cs : List Char) : ofText (String.ofList cs) = ofChars cs := by
    rw [ofText_eq_ofChars, String.toList_ofList]
  rw [← htext cs, ← htext ds] at h
  have hlist := congrArg String.toList (ofText_injective h)
  rwa [String.toList_ofList, String.toList_ofList] at hlist

theorem ofChars_lt {cs ds : List Char} (h : cs < ds) : ofChars cs < ofChars ds := by
  induction h with
  | @nil d ds =>
    obtain ⟨b, bs, hb⟩ := List.exists_cons_of_ne_nil (String.utf8EncodeChar_ne_nil (c := d))
    rw [ofChars, ofChars, List.flatMap_cons, hb]
    exact List.nil_lt_cons _ _
  | cons _ ih => exact List.append_left_lt ih
  | rel hcd => exact (utf8EncodeChar_precedes hcd).append_lt _ _

theorem ofText_lt {s t : String} (h : s < t) : ofText s < ofText t := by
  rw [ofText_eq_ofChars, ofText_eq_ofChars]
  exact ofChars_lt (String.lt_iff_toList_lt.1 h)

/-- **The bytes are in the order of the texts.** -/
theorem ofText_le_iff {s t : String} : ofText s ≤ ofText t ↔ s ≤ t := by
  constructor
  · intro h
    by_contra hts
    exact h (ofText_lt (not_le.1 hts))
  · intro h hts
    rcases h.lt_or_eq with hst | rfl
    · exact List.lt_asymm (ofText_lt hst) hts
    · exact List.lt_irrefl _ hts

end RevisionWatch.Bytes
