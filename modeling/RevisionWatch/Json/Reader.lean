import RevisionWatch.Mismatch
import RevisionWatch.Text.Bytes
/-!
# Reading JSON in one pass

A reader takes bytes from the front and gives what it read with the bytes that are left. It stops
at the first fault it meets, and there are three kinds: the bytes ended inside a value, they
break the grammar, or they are well-formed so far and say the wrong thing. This file holds what
all readers share: blanks, words, and the steps from item to item of the two containers.
-/

namespace RevisionWatch.Json

/-- Why reading stopped. -/
inductive Fault where
  | ended
  | malformed
  | unlike (m : Mismatch)
deriving DecidableEq, Repr, Inhabited

/-- The sentence for a fault. -/
def Fault.message : Fault → String
  | .ended => "EOF while parsing a value"
  | .malformed => "expected value"
  | .unlike m => m.message .json

/-- Takes a value from the front of the bytes. -/
abbrev Reader (α : Type) := Bytes → Except Fault (α × Bytes)

/-! ## 1. Blanks and words -/

/-- Space, line feed, tab and carriage return may stand between any two tokens. -/
def isBlank (b : UInt8) : Bool :=
  b == 0x20 || b == 0x0A || b == 0x09 || b == 0x0D

/-- The bytes from the first that is not blank. -/
def dropBlanks : Bytes → Bytes
  | [] => []
  | b :: bs => if isBlank b then dropBlanks bs else b :: bs

/-- What follows the rest of a word; the fault is at the first byte that is missing or differs. -/
def afterWord : Bytes → Bytes → Except Fault Bytes
  | [], bs => .ok bs
  | _ :: _, [] => .error .ended
  | w :: ws, b :: bs => if w == b then afterWord ws bs else .error .malformed

/-- What follows `true` behind its first letter, and so on for the other two words. -/
def afterTrue : Bytes → Except Fault Bytes := afterWord [0x72, 0x75, 0x65]

@[inherit_doc afterTrue]
def afterFalse : Bytes → Except Fault Bytes := afterWord [0x61, 0x6C, 0x73, 0x65]

@[inherit_doc afterTrue]
def afterNull : Bytes → Except Fault Bytes := afterWord [0x75, 0x6C, 0x6C]

/-! ## 2. Containers -/

/-- The byte of `[`, `]`, `{`, `}`, `,`, `:` and the quote. -/
def openList : UInt8 := 0x5B

@[inherit_doc openList]
def closeList : UInt8 := 0x5D

@[inherit_doc openList]
def openObject : UInt8 := 0x7B

@[inherit_doc openList]
def closeObject : UInt8 := 0x7D

@[inherit_doc openList]
def comma : UInt8 := 0x2C

@[inherit_doc openList]
def colon : UInt8 := 0x3A

@[inherit_doc openList]
def quote : UInt8 := 0x22

/-- Where the next item of a list starts; none at the closing bracket, which is left. Every item
    but the first has a comma in front, and no comma stands before the bracket. -/
def nextItem (first : Bool) (bs : Bytes) : Except Fault (Option Bytes) :=
  match dropBlanks bs with
  | [] => .error .ended
  | b :: rest =>
    if b == closeList then .ok none
    else if first then .ok (some (b :: rest))
    else if b == comma then
      match dropBlanks rest with
      | [] => .error .ended
      | c :: rest => if c == closeList then .error .malformed else .ok (some (c :: rest))
    else .error .malformed

/-- Where the next key of an object starts, behind its quote; none at the closing brace, which is
    left. -/
def nextKey (first : Bool) (bs : Bytes) : Except Fault (Option Bytes) :=
  match dropBlanks bs with
  | [] => .error .ended
  | b :: rest =>
    if b == closeObject then .ok none
    else if first then
      if b == quote then .ok (some rest) else .error .malformed
    else if b == comma then
      match dropBlanks rest with
      | [] => .error .ended
      | c :: rest => if c == quote then .ok (some rest) else .error .malformed
    else .error .malformed

/-- What follows the given byte, blanks in front ignored. -/
def afterByte (wanted : UInt8) (bs : Bytes) : Except Fault Bytes :=
  match dropBlanks bs with
  | [] => .error .ended
  | b :: rest => if b == wanted then .ok rest else .error .malformed

/-- The items of a list behind its bracket, gathered in `acc` from the last to the first. Every
    step takes a byte, so the bytes themselves, given as `fuel`, count the steps: where none is
    left to count with, none is left to read. -/
def itemsFrom {α : Type} (read : Reader α) :
    Bytes → Bool → List α → Bytes → Except Fault (List α × Bytes)
  | [], _, _, _ => .error .ended
  | _ :: fuel, first, acc, bs => do
    match ← nextItem first bs with
    | none =>
      let rest ← afterByte closeList bs
      .ok (acc.reverse, rest)
    | some bs =>
      let (a, bs) ← read bs
      itemsFrom read fuel false (a :: acc) bs

/-- The items of a list behind its bracket. -/
def items {α : Type} (read : Reader α) : Reader (List α) := fun bs =>
  itemsFrom read bs true [] bs

end RevisionWatch.Json
