import RevisionWatch.Decimal.Digits
import RevisionWatch.Decimal.Shortest
/-!
# How a double is written

A style decides from which place on a number is written with an exponent; the digits are always
the shortest that read back, a whole number keeps one zero behind the point, and an exponent
carries its sign. JSON writes positions from 10^-5 up to 10^16; a plain text writes all of them.
-/

namespace RevisionWatch.Decimal

/-- The places of the decimal point, counted from the first digit, that are written without an
    exponent: all from `low` to `high`, both included, or all there are. -/
structure Style where
  range : Option (Int × Int)

/-- The style of a JSON document. -/
def Style.document : Style := ⟨some (-4, 16)⟩

/-- The style of a sentence: never an exponent. -/
def Style.sentence : Style := ⟨none⟩

/-- Digits with the point after `point` of them, zeros filled in on either side. -/
def positional (digits : List Char) (point : Int) : String :=
  let n : Int := digits.length
  if point ≤ 0 then
    String.ofList ('0' :: '.' :: (List.replicate (-point).toNat '0' ++ digits))
  else if n ≤ point then
    String.ofList (digits ++ List.replicate (point - n).toNat '0' ++ ['.', '0'])
  else
    String.ofList (digits.take point.toNat ++ '.' :: digits.drop point.toNat)

/-- One digit, a point, the others, and the power of ten with its sign. -/
def scientific (digits : List Char) (point : Int) : String :=
  let power := point - 1
  let mark := if power < 0 then "-" else "+"
  let head := match digits with
    | [] => ""
    | [d] => String.ofList [d]
    | d :: ds => String.ofList (d :: '.' :: ds)
  head ++ "e" ++ mark ++ text power.natAbs

/-- A double in the given style. -/
def Double.write (style : Style) (x : Double) : String :=
  let s := shortest x.units
  let digits := Nat.toDigits 10 s.digits
  let point : Int := s.power + digits.length
  let body :=
    match style.range with
    | some (low, high) =>
      if low ≤ point && point ≤ high then positional digits point else scientific digits point
    | none => positional digits point
  (if x.negative then "-" else "") ++ body

end RevisionWatch.Decimal
