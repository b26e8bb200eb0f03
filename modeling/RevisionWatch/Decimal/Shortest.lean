import RevisionWatch.Decimal.Binary
/-!
# The shortest decimal that reads back

A double stands for every real that rounds to it: the interval between the midpoints to its two
neighbours, ends included if its significand is even. Of the decimals in that interval `shortest`
gives one with the fewest digits, and of those the nearest to the double. It tries one digit, two
digits, up to seventeen; on the grid of each it tests the two neighbours of the value, which
suffices because a grid that has a point in the interval has a neighbour of the value in it.
-/

namespace RevisionWatch.Decimal

/-- Digits and a power of ten: `digits · 10^power`. -/
structure Scientific where
  digits : Nat
  power : Int
deriving DecidableEq, Repr, Inhabited

/-- A fraction of steps, compared without division. -/
structure Ratio where
  num : Nat
  den : Nat

/-- The steps that `d · 10^e` stands for. -/
def Scientific.ratio (s : Scientific) : Ratio :=
  if s.power ≥ 0 then ⟨s.digits * Nat.pow 10 s.power.toNat * unitsOfOne, 1⟩
  else ⟨s.digits * unitsOfOne, Nat.pow 10 (-s.power).toNat⟩

/-- Twice the lower and upper end of the interval that rounds to a magnitude, and whether the ends
    belong to it. -/
def interval (u : Nat) : Nat × Nat × Bool :=
  let k := lastPlace u
  let gap := Nat.pow 2 k
  let below := if k > 0 && u == Nat.pow 2 (k + 52) then Nat.pow 2 (k - 1) else gap
  (2 * u - below, 2 * u + gap, (u / gap) % 2 == 0)

/-- A decimal that reads back as the magnitude. -/
def Scientific.readsBack (u : Nat) (s : Scientific) : Bool :=
  let (lo, hi, closed) := interval u
  let r := s.ratio
  if closed then lo * r.den ≤ 2 * r.num && 2 * r.num ≤ hi * r.den
  else lo * r.den < 2 * r.num && 2 * r.num < hi * r.den

/-- How far a decimal is from the magnitude, as a numerator over its own denominator. -/
def Scientific.distance (u : Nat) (s : Scientific) : Nat :=
  let r := s.ratio
  if r.num ≥ u * r.den then r.num - u * r.den else u * r.den - r.num

/-- The power of ten of the first digit of a magnitude other than zero. -/
def leadingPower (u : Nat) : Int :=
  if u ≥ unitsOfOne then ((Nat.toDigits 10 (u / unitsOfOne)).length : Int) - 1
  else
    let rec search : Nat → Nat → Int
      | 0, j => -(j : Int)
      | fuel + 1, j => if u * Nat.pow 10 j ≥ unitsOfOne then -(j : Int) else search fuel (j + 1)
    search 330 1

/-- The neighbours of a magnitude on the grid of `n` digits. -/
def neighbours (u n : Nat) : Scientific × Scientific :=
  let p := leadingPower u - (n : Int) + 1
  let d :=
    if p ≥ 0 then u / (Nat.pow 10 p.toNat * unitsOfOne)
    else u * Nat.pow 10 (-p).toNat / unitsOfOne
  (⟨d, p⟩, ⟨d + 1, p⟩)

/-- The decimal of at most `n` digits on the grid that reads back, the nearer of two. -/
def onGrid? (u n : Nat) : Option Scientific :=
  let (lo, hi) := neighbours u n
  if lo.readsBack u then
    if hi.readsBack u && hi.distance u < lo.distance u then some hi else some lo
  else if hi.readsBack u then some hi
  else none

/-- Digits without zeros at the end. -/
def Scientific.stripped : Nat → Scientific → Scientific
  | 0, s => s
  | fuel + 1, s =>
    if s.digits % 10 == 0 && s.digits != 0 then
      Scientific.stripped fuel ⟨s.digits / 10, s.power + 1⟩
    else s

/-- The shortest decimal of a magnitude. -/
def shortest (u : Nat) : Scientific :=
  if u = 0 then ⟨0, 0⟩
  else
    let found := (List.range 17).findSome? fun n => onGrid? u (n + 1)
    (found.getD (neighbours u 17).1).stripped 20

end RevisionWatch.Decimal
