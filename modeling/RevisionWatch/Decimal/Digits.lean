/-!
# Numerals

A numeral is a non-empty row of digits in a base up to sixteen, and nothing else. `value?` reads
one; `bounded?` refuses a value that its word cannot hold. Where a leading plus is tolerated, the
reader says so by name (`signed?`), since a revision never tolerates it.
-/

namespace RevisionWatch.Decimal

/-- The value of a digit, letters of either case standing for ten to fifteen. -/
def digit? (c : Char) : Option Nat :=
  if '0' ≤ c ∧ c ≤ '9' then some (c.toNat - '0'.toNat)
  else if 'a' ≤ c ∧ c ≤ 'f' then some (c.toNat - 'a'.toNat + 10)
  else if 'A' ≤ c ∧ c ≤ 'F' then some (c.toNat - 'A'.toNat + 10)
  else none

/-- The value of a digit of the given base. -/
def digitIn? (base : Nat) (c : Char) : Option Nat :=
  (digit? c).filter (· < base)

/-- The value of a row of digits behind a front of value `acc`. -/
def valueFrom? (base : Nat) : Nat → List Char → Option Nat
  | acc, [] => some acc
  | acc, c :: cs => (digitIn? base c).bind fun d => valueFrom? base (acc * base + d) cs

/-- The value of a numeral; none for an empty row or a character that is no digit. -/
def value? (base : Nat) (cs : List Char) : Option Nat :=
  if cs.isEmpty then none else valueFrom? base 0 cs

/-- The value of a numeral below `limit`. -/
def bounded? (base limit : Nat) (cs : List Char) : Option Nat :=
  (value? base cs).filter (· < limit)

/-- As `bounded?`, with one plus sign allowed in front. -/
def signed? (base limit : Nat) : List Char → Option Nat
  | '+' :: cs => bounded? base limit cs
  | cs => bounded? base limit cs

/-- The numbers a 64-bit word holds lie below this: 2^64. -/
def word64 : Nat := 18446744073709551616

/-- The numbers a 32-bit word holds lie below this: 2^32. -/
def word32 : Nat := 4294967296

/-- The numbers a 16-bit word holds lie below this: 2^16. -/
def word16 : Nat := 65536

/-- A number in decimal, without superfluous zeros. -/
def text (n : Nat) : String :=
  String.ofList (Nat.toDigits 10 n)

end RevisionWatch.Decimal
