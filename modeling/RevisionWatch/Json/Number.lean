import RevisionWatch.Json.Reader
import RevisionWatch.Json.Value
import RevisionWatch.Decimal.Binary
/-!
# JSON numbers

`numeral` takes the parts of a number; `Numeral.value?` gives what it stands for. The digits fill
one 64-bit word; those of the whole part that no longer fit only raise the exponent, and those
behind the point that no longer fit are left out. A whole number that fits is exact. Any other is
the word as a double, multiplied or divided by powers of ten that are doubles themselves: every
step rounds, so the result need not be the double nearest to the text. A number beyond the largest
double has no value.
-/

namespace RevisionWatch.Json

/-! ## 1. The parts -/

/-- The parts of a number: a sign, digits, digits behind the point, and an exponent. -/
structure Numeral where
  negative : Bool
  whole : List Nat
  fraction : Option (List Nat)
  exponent : Option (Bool × List Nat)
deriving Repr, DecidableEq

/-- The value of a decimal digit. -/
def digit? (b : UInt8) : Option Nat :=
  if 0x30 ≤ b && b ≤ 0x39 then some (b.toNat - 0x30) else none

/-- The digits at the front, gathered in `acc` from the last to the first. -/
def digitsFrom (acc : List Nat) : Bytes → List Nat × Bytes
  | [] => (acc.reverse, [])
  | b :: bs =>
    match digit? b with
    | some d => digitsFrom (d :: acc) bs
    | none => (acc.reverse, b :: bs)

/-- The digits at the front. -/
def digits (bs : Bytes) : List Nat × Bytes :=
  digitsFrom [] bs

/-- One digit or more; `short` is the fault of bytes that end before it. -/
def someDigits (short : Fault) : Reader (List Nat) := fun bs =>
  match digits bs with
  | ([], []) => .error short
  | ([], _ :: _) => .error .malformed
  | (ds, rest) => .ok (ds, rest)

/-- The whole part: a zero only if it is the only digit. -/
def wholePart (short : Fault) : Reader (List Nat) := fun bs => do
  let (ds, rest) ← someDigits short bs
  match ds with
  | 0 :: _ :: _ => .error .malformed
  | _ => .ok (ds, rest)

/-- The exponent, if the letter for one stands here. -/
def exponentPart (short : Fault) : Reader (Option (Bool × List Nat))
  | b :: rest =>
    if b == 0x65 || b == 0x45 then do
      let (negative, rest) :=
        match rest with
        | c :: more =>
          if c == 0x2B then (false, more) else if c == 0x2D then (true, more) else (false, rest)
        | [] => (false, [])
      let (ds, rest) ← someDigits short rest
      .ok (some (negative, ds), rest)
    else .ok (none, b :: rest)
  | [] => .ok (none, [])

/-- A number behind its sign. -/
def numeral (short : Fault) (negative : Bool) : Reader Numeral := fun bs => do
  let (whole, bs) ← wholePart short bs
  let (fraction, bs) ←
    match bs with
    | 0x2E :: rest => do
      let (ds, rest) ← someDigits short rest
      pure (some ds, rest)
    | _ => pure (none, bs)
  let (exponent, bs) ← exponentPart short bs
  .ok (⟨negative, whole, fraction, exponent⟩, bs)

/-! ## 2. The value -/

/-- Appends digits to a word as long as it holds them; with the digits that are left. -/
def fill (limit : Nat) : Nat → List Nat → Nat × List Nat
  | s, [] => (s, [])
  | s, d :: ds => if s * 10 + d < limit then fill limit (s * 10 + d) ds else (s, d :: ds)

/-- The double of a power of ten. -/
def powerOfTen (n : Nat) : Nat :=
  Decimal.unitsOfNat (Nat.pow 10 n)

/-- The largest power of ten that is a double. -/
def widestPower : Nat := 308

/-- The magnitude of `f · 10^e`, each step rounded. Three steps down reach zero from any word. -/
def scale? : Nat → Nat → Int → Option Nat
  | 0, f, _ => some f
  | fuel + 1, f, e =>
    if e.natAbs ≤ widestPower then
      if e ≥ 0 then Decimal.mulUnits? f (powerOfTen e.toNat)
      else some (Decimal.divUnits f (powerOfTen (-e).toNat))
    else if f = 0 then some 0
    else if e ≥ 0 then none
    else scale? fuel (Decimal.divUnits f (powerOfTen widestPower)) (e + widestPower)

/-- A 32-bit signed number nearest to the given one. -/
def clamp (i : Int) : Int :=
  max (-2147483648) (min i 2147483647)

namespace Numeral

/-- The double of a number that is not an exact integer, if there is one. -/
def real? (n : Numeral) : Option Decimal.Double :=
  let (s, beyond) := fill Decimal.word64 0 n.whole
  let point : Int := beyond.length
  let (s, point) :=
    match n.fraction with
    | none => (s, point)
    | some ds =>
      let (s', left) := fill Decimal.word64 s ds
      (s', point - (ds.length - left.length : Nat))
  let magnitude : Option Nat :=
    match n.exponent with
    | none => scale? 5 (Decimal.unitsOfNat s) point
    | some (down, ds) =>
      match fill 2147483648 0 ds with
      | (e, []) => scale? 5 (Decimal.unitsOfNat s) (clamp (if down then point - e else point + e))
      | _ => if s ≠ 0 ∧ !down then none else some 0
  magnitude.map fun u => ⟨n.negative, u⟩

/-- The value of a number; none if no double reaches it. A negative zero is a real number, and so
    is a whole number that its word does not hold. -/
def value? (n : Numeral) : Option Value :=
  match n.fraction, n.exponent, fill Decimal.word64 0 n.whole with
  | none, none, (s, []) =>
    if !n.negative then some (.integer s)
    else if 0 < s ∧ s ≤ Nat.pow 2 63 then some (.integer (-(s : Int)))
    else some (.real ⟨true, Decimal.unitsOfNat s⟩)
  | _, _, _ => n.real?.map Value.real

end Numeral

/-! ## 3. Readers -/

/-- A number behind its sign, with its value. -/
def numberBody (negative : Bool) : Reader Value := fun bs => do
  let (n, rest) ← numeral .ended negative bs
  match n.value? with
  | some v => .ok (v, rest)
  | none => .error .malformed

/-- What follows a number nobody asks for, from behind its sign. -/
def skipNumber (bs : Bytes) : Except Fault Bytes := do
  let (_, rest) ← numeral .malformed false bs
  .ok rest

end RevisionWatch.Json
