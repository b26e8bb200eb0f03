/-!
# Bytes and text

What travels over the socket is a list of bytes; what the rest of the library talks about is text.
This file fixes the passage between the two:

* `ofText` writes a text as its UTF-8 bytes, `toText?` reads bytes that are exactly the UTF-8 form
  of some text and refuses all others (`toText?_eq_some_iff`);
* `toTextLossy` reads any bytes, one replacement character standing for each stretch that cannot be
  continued to a character;
* `after?`, `positionFrom?`, `splitAt?` find the first occurrence of a delimiter, which is how a
  header section and a line end where they do.
-/

namespace RevisionWatch

/-- A finite sequence of bytes, as read from or written to a connection. -/
abbrev Bytes := List UInt8

namespace Bytes

/-! ## 1. UTF-8 -/

/-- The UTF-8 form of a text. -/
def ofText (s : String) : Bytes :=
  s.toUTF8.data.toList

/-- The text whose UTF-8 form the bytes are, if there is one. -/
def toText? (bs : Bytes) : Option String :=
  String.fromUTF8? ⟨bs.toArray⟩

/-- Reading accepts exactly what writing produces. -/
theorem toText?_eq_some_iff {bs : Bytes} {s : String} : toText? bs = some s ↔ bs = ofText s := by
  unfold toText? ofText String.fromUTF8?
  constructor
  · intro h
    split at h
    · rename_i hv
      simp only [Option.some.injEq] at h
      subst h
      simp [String.toUTF8, String.fromUTF8]
    · simp at h
  · intro h
    subst h
    have hb : (⟨s.toUTF8.data.toList.toArray⟩ : ByteArray) = s.toByteArray := by
      simp [String.toUTF8]
    rw [hb, dif_pos s.isValidUTF8]
    rfl

theorem toText?_ofText (s : String) : toText? (ofText s) = some s :=
  toText?_eq_some_iff.2 rfl

theorem ofText_injective {s t : String} (h : ofText s = ofText t) : s = t := by
  have hs := toText?_ofText s
  rw [h, toText?_ofText] at hs
  exact (Option.some.inj hs).symm

/-- The UTF-8 form of a list of characters. -/
def ofChars (cs : List Char) : Bytes :=
  cs.flatMap String.utf8EncodeChar

/-! ## 2. Reading any bytes -/

/-- A byte `10xxxxxx`, which continues a character. -/
def isContinuation (b : UInt8) : Bool :=
  0x80 ≤ b && b ≤ 0xBF

/-- How many bytes a first byte announces, with the range its second byte has to lie in; none for
    a byte that starts no character. -/
def lead? (b : UInt8) : Option (Nat × UInt8 × UInt8) :=
  if b < 0x80 then some (1, 0, 0)
  else if 0xC2 ≤ b && b ≤ 0xDF then some (2, 0x80, 0xBF)
  else if b == 0xE0 then some (3, 0xA0, 0xBF)
  else if b == 0xED then some (3, 0x80, 0x9F)
  else if 0xE1 ≤ b && b ≤ 0xEF then some (3, 0x80, 0xBF)
  else if b == 0xF0 then some (4, 0x90, 0xBF)
  else if 0xF1 ≤ b && b ≤ 0xF3 then some (4, 0x80, 0xBF)
  else if b == 0xF4 then some (4, 0x80, 0x8F)
  else none

/-- The length of the stretch at the front that is read as one unit, and whether it is a whole
    character. A stretch that is no character ends before the first byte that cannot continue it. -/
def unit : Bytes → Nat × Bool
  | [] => (0, true)
  | b :: rest =>
    match lead? b with
    | none => (1, false)
    | some (n, lo, hi) =>
      if n = 1 then (1, true)
      else match rest with
        | [] => (1, false)
        | c :: rest =>
          if lo ≤ c && c ≤ hi then
            let more := (rest.take (n - 2)).takeWhile isContinuation
            (2 + more.length, more.length == n - 2)
          else (1, false)

/-- The text of any bytes: a character where one is spelled, else U+FFFD for the stretch. -/
def toTextLossy (bs : Bytes) : String :=
  go bs.length bs ""
where
  go : Nat → Bytes → String → String
    | 0, _, acc => acc
    | _, [], acc => acc
    | fuel + 1, bs, acc =>
      let (n, whole) := unit bs
      let part := if whole then (toText? (bs.take n)).getD "\uFFFD" else "\uFFFD"
      go fuel (bs.drop n) (acc ++ part)

/-! ## 3. Delimiters -/

/-- What follows `d` when the bytes start with it. -/
def after? : Bytes → Bytes → Option Bytes
  | [], bs => some bs
  | _ :: _, [] => none
  | x :: d, b :: bs => if x == b then after? d bs else none

/-- Where `d` first occurs, counted from `n` at the front. -/
def positionFrom? (d : Bytes) : Nat → Bytes → Option Nat
  | n, [] => if d.isEmpty then some n else none
  | n, b :: bs => if (after? d (b :: bs)).isSome then some n else positionFrom? d (n + 1) bs

/-- The bytes before the first occurrence of `d`, and those behind it. -/
def splitAt? (d bs : Bytes) : Option (Bytes × Bytes) :=
  (positionFrom? d 0 bs).map fun n => (bs.take n, bs.drop (n + d.length))

/-- Carriage return and line feed. -/
def crlf : Bytes := [0x0D, 0x0A]

end Bytes

end RevisionWatch
