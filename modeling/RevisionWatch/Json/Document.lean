import RevisionWatch.Json.Skip
/-!
# Values read whole

A reader of values works inside a room: the number of containers that may still be opened. What
is asked for is read to a depth of 127, and the next bracket is a fault of grammar. This file
reads values of any kind, and the scalars and lists of a known kind; a value of another kind is
read far enough to say what it is, so its own faults come first.
-/

namespace RevisionWatch.Json

/-- Reads a value inside a room. -/
abbrev Nested (α : Type) := Nat → Reader α

/-- How deep a document may be. -/
def depthLimit : Nat := 127

/-! ## 1. Any value -/

/-- The members of an object behind its brace, gathered in `acc` from the last to the first. -/
def membersFrom {α : Type} (read : Reader α) :
    Bytes → Bool → List (String × α) → Bytes → Except Fault (List (String × α) × Bytes)
  | [], _, _, _ => .error .ended
  | _ :: fuel, first, acc, bs => do
    match ← nextKey first bs with
    | none =>
      let rest ← afterByte closeObject bs
      .ok (acc.reverse, rest)
    | some bs =>
      let (key, bs) ← textBody bs
      let bs ← afterByte colon bs
      let (a, bs) ← read bs
      membersFrom read fuel false ((key, a) :: acc) bs

/-- The members of an object behind its brace, in the order of the text. -/
def members {α : Type} (read : Reader α) : Reader (List (String × α)) := fun bs =>
  membersFrom read bs true [] bs

/-- A scalar, if the first byte starts one: the word, number or text is read to its end. -/
def scalar? (b : UInt8) (rest : Bytes) : Option (Except Fault (Value × Bytes)) :=
  if b == 0x6E then some ((Value.null, ·) <$> afterNull rest)
  else if b == 0x74 then some ((Value.boolean true, ·) <$> afterTrue rest)
  else if b == 0x66 then some ((Value.boolean false, ·) <$> afterFalse rest)
  else if b == 0x2D then some (numberBody true rest)
  else if (digit? b).isSome then some (numberBody false (b :: rest))
  else if b == quote then some (do
    let (s, rest) ← textBody rest
    .ok (.text s, rest))
  else none

/-- A value as it stands in the text: the members of an object in order, doubles kept. -/
inductive Content where
  | scalar (v : Value)
  | list (items : List Content)
  | object (members : List (String × Content))
deriving Repr, Inhabited

/-- Any value, its objects as they stand. -/
def content : Nested Content := fun room bs =>
  match dropBlanks bs with
  | [] => .error .ended
  | b :: rest =>
    match scalar? b rest with
    | some r => do
      let (v, rest) ← r
      .ok (.scalar v, rest)
    | none =>
      match room with
      | 0 => .error .malformed
      | room + 1 =>
        if b == openList then do
          let (cs, rest) ← items (content room) rest
          .ok (.list cs, rest)
        else if b == openObject then do
          let (ms, rest) ← members (content room) rest
          .ok (.object ms, rest)
        else .error .malformed

mutual

/-- The value of a content: members by rising key, of two with one key the later. -/
def Content.value : Content → Value
  | .scalar v => v
  | .list cs => .list (Content.values cs)
  | .object ms => .objectOf (Content.memberValues ms)

/-- The values of the items of a list. -/
def Content.values : List Content → List Value
  | [] => []
  | c :: cs => c.value :: Content.values cs

/-- The values of the members of an object, in order. -/
def Content.memberValues : List (String × Content) → List (String × Value)
  | [] => []
  | (k, c) :: ms => (k, c.value) :: Content.memberValues ms

end

/-- The name under which a content is refused. -/
def Content.found : Content → Found
  | .scalar v => v.found
  | .list _ => .sequence
  | .object _ => .map

/-- Any value. -/
def value : Nested Value := fun room bs => do
  let (c, rest) ← content room bs
  .ok (c.value, rest)

/-! ## 2. Values of a known kind -/

/-- The fault of a value of another kind than `wanted`. -/
def unwanted (wanted : String) (b : UInt8) (rest : Bytes) : Fault :=
  match scalar? b rest with
  | some (.error e) => e
  | some (.ok (v, _)) => .unlike (.wrongType v.found wanted)
  | none =>
    if b == openList then .unlike (.wrongType .sequence wanted)
    else if b == openObject then .unlike (.wrongType .map wanted)
    else .malformed

/-- A text that stands for what `wanted` says. -/
def textAs (wanted : String) : Reader String := fun bs =>
  match dropBlanks bs with
  | [] => .error .ended
  | b :: rest => if b == quote then textBody rest else .error (unwanted wanted b rest)

/-- A text. -/
def text : Reader String :=
  textAs "a string"

/-- A truth value. -/
def boolean : Reader Bool := fun bs =>
  match dropBlanks bs with
  | [] => .error .ended
  | b :: rest =>
    if b == 0x74 then (true, ·) <$> afterTrue rest
    else if b == 0x66 then (false, ·) <$> afterFalse rest
    else .error (unwanted "a boolean" b rest)

/-- A number is a natural number below a limit, or says why it is not. -/
def Value.naturalBelow (limit : Nat) (wanted : String) : Value → Except Mismatch Nat
  | .integer i =>
    if 0 ≤ i ∧ i < limit then .ok i.toNat else .error (.wrongValue (.integer i) wanted)
  | v => .error (.wrongType v.found wanted)

/-- A natural number below a limit. -/
def natural (limit : Nat) (wanted : String) : Reader Nat := fun bs =>
  match dropBlanks bs with
  | [] => .error .ended
  | b :: rest =>
    match scalar? b rest with
    | some (.ok (v, rest)) =>
      match v.naturalBelow limit wanted with
      | .ok n => .ok (n, rest)
      | .error m => .error (.unlike m)
    | _ => .error (unwanted wanted b rest)

/-- A value, or the word null for none. -/
def optional {α : Type} (read : Reader α) : Reader (Option α) := fun bs =>
  match dropBlanks bs with
  | b :: rest =>
    if b == 0x6E then (none, ·) <$> afterNull rest
    else do
      let (a, rest) ← read bs
      .ok (some a, rest)
  | [] => .error .ended

/-- A list of values. -/
def listOf {α : Type} (read : Nested α) : Nested (List α) := fun room bs =>
  match dropBlanks bs with
  | [] => .error .ended
  | b :: rest =>
    if b == openList then
      match room with
      | 0 => .error .malformed
      | room + 1 => items (read room) rest
    else .error (unwanted "a sequence" b rest)

/-! ## 3. Documents -/

/-- A whole text that is one value, blanks around it. -/
def document {α : Type} (read : Nested α) (bs : Bytes) : Except Fault α := do
  let (a, rest) ← read depthLimit bs
  match dropBlanks rest with
  | [] => .ok a
  | _ :: _ => .error .malformed

end RevisionWatch.Json
