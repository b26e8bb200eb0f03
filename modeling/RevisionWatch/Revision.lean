import RevisionWatch.Decimal.Digits
/-!
# Revisions

Every build of a package that is installed gets the next number of a 64-bit counter. The daemon
reports it as one marker character followed by decimal digits (`x42` for a build that was installed
by hand); what the marker is does not matter, so it may even be a digit.
-/

namespace RevisionWatch

/-- An install counter; it fits in a 64-bit word. -/
structure Revision where
  number : Nat
  fits : number < Decimal.word64 := by decide
deriving DecidableEq, Repr

namespace Revision

/-- The largest revision. -/
def last : Revision := ⟨Decimal.word64 - 1, by decide⟩

instance : Inhabited Revision := ⟨⟨0, by decide⟩⟩

instance : LT Revision := ⟨fun a b => a.number < b.number⟩

instance : LE Revision := ⟨fun a b => a.number ≤ b.number⟩

instance (a b : Revision) : Decidable (a < b) := inferInstanceAs (Decidable (a.number < b.number))

instance (a b : Revision) : Decidable (a ≤ b) := inferInstanceAs (Decidable (a.number ≤ b.number))

instance : Ord Revision := ⟨fun a b => compare a.number b.number⟩

/-- The revision that one successful update is expected to produce; the largest has no other than
    itself. -/
def next (r : Revision) : Revision :=
  if h : r.number + 1 < Decimal.word64 then ⟨r.number + 1, h⟩ else last

/-- The number in decimal. -/
def text (r : Revision) : String :=
  Decimal.text r.number

instance : ToString Revision := ⟨text⟩

/-- The revision of a number that fits. -/
def ofNat? (n : Nat) : Option Revision :=
  if h : n < Decimal.word64 then some ⟨n, h⟩ else none

/-- Reads one marker character and the digits behind it. -/
def parse? (raw : String) : Option Revision :=
  match raw.toList with
  | [] => none
  | _ :: digits => (Decimal.value? 10 digits).bind ofNat?

theorem ext_number {a b : Revision} (h : a.number = b.number) : a = b := by
  cases a; cases b; cases h; rfl

theorem next_number (r : Revision) :
    r.next.number = if r.number + 1 < Decimal.word64 then r.number + 1 else r.number := by
  unfold next
  split
  · rfl
  · have := r.fits
    simp only [last]
    omega

end Revision

end RevisionWatch
