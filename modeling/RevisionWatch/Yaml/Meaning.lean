import RevisionWatch.Mismatch
import RevisionWatch.Yaml.Node
/-!
# What a scalar means

A plain scalar without a tag may be nothing, a truth value, a number or a text; the first of these
that its characters spell it is. Digits behind a leading zero are a text, so that a number is
never taken for one of another base. A tag of the core kinds decides, and then a scalar that does
not spell the kind is of no use.
-/

namespace RevisionWatch.Yaml

/-! ## 1. Spellings -/

/-- The spellings of nothing. -/
def isNothing (s : String) : Bool :=
  s == "null" || s == "Null" || s == "NULL" || s == "~"

/-- The truth value of a spelling. -/
def truth? (s : String) : Option Bool :=
  if s == "true" || s == "True" || s == "TRUE" then some true
  else if s == "false" || s == "False" || s == "FALSE" then some false
  else none

/-- The characters behind one sign, if there is one. -/
def unsigned : List Char → List Char
  | c :: cs => if c == '-' || c == '+' then cs else c :: cs
  | [] => []

/-- The characters start with a sign. -/
def isSigned : List Char → Bool
  | c :: _ => c == '-' || c == '+'
  | [] => false

/-- More digits than one, the first of them zero. -/
def hasLeadingZero (cs : List Char) : Bool :=
  match unsigned cs with
  | '0' :: c :: cs => (c :: cs).all Char.isDigit
  | _ => false

/-- A number below a limit in the base that its mark names, or in decimal. -/
def magnitude? (limit : Nat) (cs : List Char) : Option Nat :=
  let based (base : Nat) (ds : List Char) : Option Nat := Decimal.bounded? base limit ds
  let marked :=
    match cs with
    | '0' :: 'x' :: ds => based 16 ds
    | '0' :: 'o' :: ds => based 8 ds
    | '0' :: 'b' :: ds => based 2 ds
    | _ => none
  match marked with
  | some n => some n
  | none => if hasLeadingZero cs then none else based 10 cs

/-- A natural number below a limit; one plus sign may stand in front. -/
def natural? (limit : Nat) : List Char → Option Nat
  | '+' :: cs => magnitude? limit cs
  | cs => magnitude? limit cs

/-- A number that is not above zero and not below a limit, with its sign in front. -/
def negative? (limit : Nat) : List Char → Option Nat
  | '-' :: cs => magnitude? (limit + 1) cs
  | _ => none

/-- A whole number. One that a 64-bit word does not hold, but one of 128 bits does, is wide. -/
def integer? (s : String) : Option Found :=
  let cs := s.toList
  match natural? Decimal.word64 cs with
  | some n => some (.integer n)
  | none =>
    match negative? (Nat.pow 2 63) cs with
    | some n => some (.integer (-(n : Int)))
    | none =>
      match natural? (Nat.pow 2 128) cs with
      | some n => some (.wideInteger n)
      | none => (negative? (Nat.pow 2 127) cs).map fun n => .wideInteger (-(n : Int))

/-- The digits of a decimal and its power of ten: digits, a point with more, an exponent. -/
def decimal? (cs : List Char) : Option (Nat × Int) := do
  let whole := cs.takeWhile Char.isDigit
  let cs := cs.drop whole.length
  let (fraction, cs) :=
    match cs with
    | '.' :: rest =>
      let ds := rest.takeWhile Char.isDigit
      (ds, rest.drop ds.length)
    | _ => ([], cs)
  let digits ← Decimal.value? 10 (whole ++ fraction)
  let scale : Int := fraction.length
  match cs with
  | [] => some (digits, -scale)
  | c :: rest =>
    if c == 'e' || c == 'E' then do
      let n ← Decimal.value? 10 (unsigned rest)
      some (digits, (if rest.head? == some '-' then -(n : Int) else n) - scale)
    else none

/-- The decimal number of a spelling with at most one sign, as the nearest double. -/
def finite? (cs : List Char) : Option Decimal.Double := do
  let (m, e) ← decimal? (unsigned cs)
  let u ← Decimal.unitsOfDecimal? m e
  some ⟨cs.head? == some '-', u⟩

/-- A real number. -/
def real? (s : String) : Option Real :=
  let cs := s.toList
  let positive := match cs with
    | '+' :: rest => rest
    | _ => cs
  let name := String.ofList positive
  if name == ".inf" || name == ".Inf" || name == ".INF" then some (.infinite false)
  else if s == "-.inf" || s == "-.Inf" || s == "-.INF" then some (.infinite true)
  else if s == ".nan" || s == ".NaN" || s == ".NAN" then some .undefined
  else if cs.head? == some '+' && isSigned positive then none
  else (finite? positive).map .finite

/-! ## 2. Scalars -/

/-- What a plain scalar without a tag means. -/
def untagged (s : String) : Found :=
  if s.isEmpty || isNothing s then .nothing
  else
    match truth? s with
    | some b => .boolean b
    | none =>
      match integer? s with
      | some i => i
      | none =>
        if hasLeadingZero s.toList then .text s
        else
          match real? s with
          | some x => .real x
          | none => .text s

/-- The kind that a tag of the core names. -/
inductive Kind where
  | boolean
  | integer
  | real
  | nothing
deriving DecidableEq, Repr

/-- The kind of a tag. -/
def Kind.ofTag? (tag : String) : Option Kind :=
  if tag == "tag:yaml.org,2002:bool" then some .boolean
  else if tag == "tag:yaml.org,2002:int" then some .integer
  else if tag == "tag:yaml.org,2002:float" then some .real
  else if tag == "tag:yaml.org,2002:null" then some .nothing
  else none

/-- What a scalar of a kind means, if it spells the kind. -/
def Kind.found? (k : Kind) (s : String) : Option Found :=
  match k with
  | .boolean => (truth? s).map .boolean
  | .integer => integer? s
  | .real => (real? s).map .real
  | .nothing => if isNothing s then some .nothing else none

/-- What a value of a kind is called. -/
def Kind.wanted : Kind → String
  | .boolean => "a boolean"
  | .integer => "an integer"
  | .real => "a float"
  | .nothing => "null"

/-- Why a scalar is not what was wanted: it does not spell the kind of its tag, or it means
    something else. -/
def scalarMismatch (wanted : String) (style : Style) (tag : Option String) (s : String) :
    Mismatch :=
  match tag with
  | some t =>
    match Kind.ofTag? t with
    | some k =>
      match k.found? s with
      | some found => .wrongType found wanted
      | none => .wrongValue (.text s) k.wanted
    | none =>
      if t.startsWith "!" && style == .plain then .wrongType (untagged s) wanted
      else .wrongType (.text s) wanted
  | none =>
    if style == .plain then .wrongType (untagged s) wanted else .wrongType (.text s) wanted

/-! ## 3. Nodes of a document -/

namespace Node

/-- The node that is meant, references followed. -/
def meant (d : Document) : Node → Node
  | .reference number => (d.target? number).getD (.scalar .plain none "")
  | n => n

/-- Why a node is not what was wanted. -/
def mismatch (wanted : String) : Node → Mismatch
  | .scalar style tag s => scalarMismatch wanted style tag s
  | .sequence _ => .wrongType .sequence wanted
  | .mapping _ => .wrongType .map wanted
  | .reference _ => .wrongType .nothing wanted

/-- A text: any scalar, by its characters. -/
def text (wanted : String) : Node → Except Mismatch String
  | .scalar _ _ s => .ok s
  | n => .error (n.mismatch wanted)

/-- Whether a scalar may be a number: a plain one, or a literal one that is tagged as one. -/
def mayBeNumber (style : Style) (tag : Option String) : Bool :=
  style == .plain || (style == .literal && tag == some "tag:yaml.org,2002:int")

/-- A natural number below a limit. -/
def natural (limit : Nat) (wanted : String) : Node → Except Mismatch Nat
  | .scalar style tag s =>
    if mayBeNumber style tag then
      match natural? Decimal.word64 s.toList with
      | some n => if n < limit then .ok n else .error (.wrongValue (.integer n) wanted)
      | none => .error (scalarMismatch wanted style tag s)
    else .error (scalarMismatch wanted style tag s)
  | n => .error (n.mismatch wanted)

/-- Whether a node stands for no value. A plain scalar tagged as nothing has to spell it. -/
def isAbsent : Node → Except Mismatch Bool
  | .scalar .plain (some t) s =>
    if Kind.ofTag? t == some .nothing then
      if isNothing s then .ok true else .error (.wrongValue (.text s) "null")
    else .ok false
  | .scalar .plain none s => .ok (s.isEmpty || isNothing s)
  | _ => .ok false

end Node

end RevisionWatch.Yaml
