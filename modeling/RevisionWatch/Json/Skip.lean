import RevisionWatch.Json.Number
import RevisionWatch.Json.Text
/-!
# Skipping a value nobody asks for

Only the grammar of a skipped value is checked: its texts may hold any bytes and any surrogates,
its numbers may be of any size, and it may be nested to any depth. The containers that are still
open are kept as a list, the innermost first, so the depth costs nothing but that list.
-/

namespace RevisionWatch.Json

/-- A container that is open. -/
inductive Container where
  | list
  | object
deriving DecidableEq, Repr

/-- What follows a key that is not read and its colon, from behind the key's quote. -/
def skipKey (bs : Bytes) : Except Fault Bytes := do
  let bs ← skipBody bs
  afterByte colon bs

/-- What follows the next item of an open container, down to where its value starts; none at the
    closing bracket, which is left. -/
def skipTo (c : Container) (first : Bool) (bs : Bytes) : Except Fault (Option Bytes) :=
  match c with
  | .list => nextItem first bs
  | .object => do
    match ← nextKey first bs with
    | none => .ok none
    | some bs => some <$> skipKey bs

/-- What follows a scalar, or the container that its first byte opens. -/
def skipStart (bs : Bytes) : Except Fault (Option Container × Bytes) :=
  match dropBlanks bs with
  | [] => .error .ended
  | b :: rest =>
    if b == 0x6E then (none, ·) <$> afterNull rest
    else if b == 0x74 then (none, ·) <$> afterTrue rest
    else if b == 0x66 then (none, ·) <$> afterFalse rest
    else if b == 0x2D then (none, ·) <$> skipNumber rest
    else if (digit? b).isSome then (none, ·) <$> skipNumber (b :: rest)
    else if b == quote then (none, ·) <$> skipBody rest
    else if b == openList then .ok (some .list, rest)
    else if b == openObject then .ok (some .object, rest)
    else .error .malformed

/-- Where skipping stands: in front of a value, or behind one. -/
inductive Stance where
  | before
  | behind
deriving DecidableEq, Repr

/-- The step from one item of the innermost container to the next, or out of the container; what is
    open then, and where skipping stands. -/
def skipOn (c : Container) (opened : List Container) (first : Bool) (bs : Bytes) :
    Except Fault (Stance × List Container × Bytes) :=
  match skipTo c first bs with
  | .error e => .error e
  | .ok (some bs) => .ok (.before, c :: opened, bs)
  | .ok none => .ok (.behind, opened, (dropBlanks bs).drop 1)

/-- One step: past a scalar, past an opening bracket to the first item behind it, or from an item to
    the next. -/
def skipStep : Stance → List Container → Bytes → Except Fault (Stance × List Container × Bytes)
  | .before, opened, bs =>
    match skipStart bs with
    | .error e => .error e
    | .ok (none, bs) => .ok (.behind, opened, bs)
    | .ok (some c, bs) => skipOn c opened true bs
  | .behind, [], bs => .ok (.behind, [], bs)
  | .behind, c :: opened, bs => skipOn c opened false bs

/-- Skips until every container in `opened` is closed again. Every step takes a byte, so the bytes,
    given as `fuel`, count the steps. -/
def skipFrom : Bytes → Stance → List Container → Bytes → Except Fault Bytes
  | _, .behind, [], bs => .ok bs
  | [], _, _, _ => .error .ended
  | _ :: fuel, stance, opened, bs =>
    match skipStep stance opened bs with
    | .error e => .error e
    | .ok (stance, opened, bs) => skipFrom fuel stance opened bs

/-- What follows a value. -/
def skip (bs : Bytes) : Except Fault Bytes :=
  skipFrom bs .before [] bs

end RevisionWatch.Json
