/-!
# Double-precision numbers, exactly

A finite double is a sign and a natural multiple of 2^-1074 with at most 53 significant bits below
2^1024. Here it is that multiple: `units` counts steps of 2^-1074, so that a product, a quotient
or the value of a decimal is an exact fraction of natural numbers, rounded once by `roundUnits`
(to nearest, a tie to the even neighbour). Nothing depends on the machine's arithmetic.
-/

namespace RevisionWatch.Decimal

/-- A finite double: `units` steps of 2^-1074, negated or not. Zero has both signs. -/
structure Double where
  negative : Bool
  units : Nat
deriving DecidableEq, Repr, Inhabited

/-- The steps of 2^-1074 in one. -/
def unitsOfOne : Nat := Nat.pow 2 1074

/-- The first magnitude a finite double cannot reach, in steps. -/
def unitsLimit : Nat := Nat.pow 2 2098

/-- The natural number nearest to a fraction; a tie goes to the even one. -/
def roundRatio (num den : Nat) : Nat :=
  let q := num / den
  let r := num % den
  if 2 * r < den then q
  else if 2 * r > den then q + 1
  else if q % 2 == 0 then q else q + 1

/-- The place of the last significant bit of a double near `n` steps: 53 bits from the first. -/
def lastPlace (n : Nat) : Nat :=
  Nat.log2 n - 52

/-- The magnitude of the double nearest to a fraction of steps. -/
def roundUnits (num den : Nat) : Nat :=
  let k := lastPlace (num / den)
  let place := Nat.pow 2 k
  roundRatio num (den * place) * place

/-- The magnitude of the double nearest to a natural number. -/
def unitsOfNat (n : Nat) : Nat :=
  roundUnits (n * unitsOfOne) 1

/-- The magnitude of a product of two magnitudes, if a double holds it. -/
def mulUnits? (a b : Nat) : Option Nat :=
  (some (roundUnits (a * b) unitsOfOne)).filter (· < unitsLimit)

/-- The magnitude of a quotient of two magnitudes, the second not zero. -/
def divUnits (a b : Nat) : Nat :=
  roundUnits (a * unitsOfOne) b

/-- The magnitude nearest to `m · 10^e`; none beyond the largest double. The exponent is cut where
    every further step would give zero or overflow anyway. -/
def unitsOfDecimal? (m : Nat) (e : Int) : Option Nat :=
  if m = 0 then some 0
  else
    let size : Int := (Nat.toDigits 10 m).length
    if e + size > 400 then none
    else if e + size < -400 then some 0
    else
      let u :=
        if e ≥ 0 then roundUnits (m * Nat.pow 10 e.toNat * unitsOfOne) 1
        else roundUnits (m * unitsOfOne) (Nat.pow 10 (-e).toNat)
      if u < unitsLimit then some u else none

end RevisionWatch.Decimal
