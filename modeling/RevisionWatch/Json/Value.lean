import RevisionWatch.Mismatch
/-!
# JSON values

A value that is kept whole: an integer that a signed or unsigned 64-bit word holds, any other
number as a double, text, and the two containers. A decoded object lists its members by rising
key, each key once (`insertMember`); an object that is built to be written keeps the order it was
given.
-/

namespace RevisionWatch.Json

/-- A JSON value. -/
inductive Value where
  | null
  | boolean (b : Bool)
  | integer (i : Int)
  | real (x : Decimal.Double)
  | text (s : String)
  | list (items : List Value)
  | object (members : List (String × Value))
deriving Repr, Inhabited

/-- Puts a member at its key's place; a member of the same key is replaced. -/
def insertMember (key : String) (v : Value) : List (String × Value) → List (String × Value)
  | [] => [(key, v)]
  | (k, w) :: rest =>
    if key < k then (key, v) :: (k, w) :: rest
    else if key == k then (key, v) :: rest
    else (k, w) :: insertMember key v rest

namespace Value

/-- An object whose members come by rising key; of two with one key the later counts. -/
def objectOf (members : List (String × Value)) : Value :=
  .object (members.foldl (fun sorted (k, v) => insertMember k v sorted) [])

/-- The member of a key. -/
def member? (key : String) : Value → Option Value
  | .object members => members.lookup key
  | _ => none

/-- The name under which a value is refused. -/
def found : Value → Found
  | .null => .nothing
  | .boolean b => .boolean b
  | .integer i => .integer i
  | .real x => .real (.finite x)
  | .text s => .text s
  | .list _ => .sequence
  | .object _ => .map

/-- A natural number as a value. -/
def natural (n : Nat) : Value :=
  .integer n

/-- A text, or null for none. -/
def textOrNull : Option String → Value
  | none => .null
  | some s => .text s

end Value

end RevisionWatch.Json
