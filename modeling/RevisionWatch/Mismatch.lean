import RevisionWatch.Decimal.Notation
import RevisionWatch.Text.Quoted
/-!
# Well-formed, but not what was asked for

A document can obey its grammar and still not be the thing it is read as: a number stands where a
text is wanted, a field is missing, a field is given twice. `Mismatch` is that cause. The sentence
for it is the same in both document formats up to the two spellings of a `Wording`: what nothing
is called, and how a real number is written.
-/

namespace RevisionWatch

/-- A real number as a document may give it. -/
inductive Real where
  | finite (x : Decimal.Double)
  | infinite (negative : Bool)
  | undefined
deriving DecidableEq, Repr, Inhabited

/-- What stands in the document. -/
inductive Found where
  | nothing
  | boolean (b : Bool)
  | integer (i : Int)
  | wideInteger (i : Int)
  | real (x : Real)
  | text (s : String)
  | sequence
  | map
deriving DecidableEq, Repr, Inhabited

/-- Why a well-formed document is not read. -/
inductive Mismatch where
  | wrongType (found : Found) (wanted : String)
  | wrongValue (found : Found) (wanted : String)
  | wrongLength (length : Nat) (wanted : String)
  | unknownVariant (name : String) (known : List String)
  | unknownField (name : String) (known : List String)
  | missingField (name : String)
  | repeatedField (name : String)
deriving DecidableEq, Repr, Inhabited

/-- The spellings in which the two formats differ. -/
structure Wording where
  nothing : String
  real : Real → String

namespace Wording

/-- A real number, finite ones in the given style. -/
def realText (style : Decimal.Style) : Real → String
  | .finite x => x.write style
  | .infinite negative => if negative then "-inf" else "inf"
  | .undefined => "NaN"

/-- A JSON document has a null, and writes large and small numbers with an exponent. -/
def json : Wording := ⟨"null", realText .document⟩

/-- A YAML document has a unit value, and numbers are written out. -/
def yaml : Wording := ⟨"unit value", realText .sentence⟩

end Wording

/-- What was found, named with its content where it is short. -/
def Found.describe (w : Wording) : Found → String
  | .nothing => w.nothing
  | .boolean b => "boolean \x60" ++ (if b then "true" else "false") ++ "\x60"
  | .integer i => "integer \x60" ++ toString i ++ "\x60"
  | .wideInteger i =>
    "integer \x60" ++ toString i ++ "\x60 as " ++ (if i < 0 then "i128" else "u128")
  | .real x => "floating point \x60" ++ w.real x ++ "\x60"
  | .text s => "string " ++ Text.quoted s
  | .sequence => "sequence"
  | .map => "map"

/-- A name between its marks. -/
def marked (name : String) : String :=
  "\x60" ++ name ++ "\x60"

/-- The known names: two are joined by "or", more are listed. -/
def oneOf : List String → String
  | [] => ""
  | [a] => marked a
  | [a, b] => marked a ++ " or " ++ marked b
  | names => "one of " ++ String.intercalate ", " (names.map marked)

/-- The sentence for a mismatch. -/
def Mismatch.message (w : Wording) : Mismatch → String
  | .wrongType found wanted =>
    "invalid type: " ++ found.describe w ++ ", expected " ++ wanted
  | .wrongValue found wanted =>
    "invalid value: " ++ found.describe w ++ ", expected " ++ wanted
  | .wrongLength length wanted =>
    "invalid length " ++ Decimal.text length ++ ", expected " ++ wanted
  | .unknownVariant name known =>
    "unknown variant " ++ marked name ++ ", expected " ++ oneOf known
  | .unknownField name known =>
    "unknown field " ++ marked name ++ ", expected " ++ oneOf known
  | .missingField name => "missing field " ++ marked name
  | .repeatedField name => "duplicate field " ++ marked name

end RevisionWatch
