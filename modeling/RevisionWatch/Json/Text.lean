import RevisionWatch.Json.Reader
/-!
# JSON texts

A text stands between quotes; a backslash introduces an escape, and a control character may not
stand for itself. `textBody` gives the characters meant; `skipBody` only finds the end of a text
nobody asks for, so it takes any bytes and any surrogate.
-/

namespace RevisionWatch.Json

/-- The value of a hexadecimal digit. -/
def hexDigit? (b : UInt8) : Option Nat :=
  if 0x30 ≤ b && b ≤ 0x39 then some (b.toNat - 0x30)
  else if 0x61 ≤ b && b ≤ 0x66 then some (b.toNat - 0x61 + 10)
  else if 0x41 ≤ b && b ≤ 0x46 then some (b.toNat - 0x41 + 10)
  else none

/-- A unit of four hexadecimal digits. That there are four bytes is asked before what they are. -/
def hexUnit : Reader Nat
  | a :: b :: c :: d :: rest =>
    match hexDigit? a, hexDigit? b, hexDigit? c, hexDigit? d with
    | some a, some b, some c, some d => .ok (((a * 16 + b) * 16 + c) * 16 + d, rest)
    | _, _, _, _ => .error .malformed
  | _ => .error .ended

/-- The byte that an escape of one letter stands for. -/
def escaped? (b : UInt8) : Option UInt8 :=
  if b == 0x22 || b == 0x5C || b == 0x2F then some b
  else if b == 0x62 then some 0x08
  else if b == 0x66 then some 0x0C
  else if b == 0x6E then some 0x0A
  else if b == 0x72 then some 0x0D
  else if b == 0x74 then some 0x09
  else none

/-- The first of a pair of surrogates. -/
def isLeadSurrogate (u : Nat) : Bool := 0xD800 ≤ u && u ≤ 0xDBFF

/-- The second of a pair of surrogates. -/
def isTrailSurrogate (u : Nat) : Bool := 0xDC00 ≤ u && u ≤ 0xDFFF

/-- The character of an escape by number: one unit, or a pair of surrogates. -/
def numberedChar : Reader Char := fun bs => do
  let (u, bs) ← hexUnit bs
  if isTrailSurrogate u then .error .malformed
  else if isLeadSurrogate u then
    let bs ← afterWord [0x5C, 0x75] bs
    let (v, bs) ← hexUnit bs
    if isTrailSurrogate v then
      .ok (Char.ofNat (0x10000 + (u - 0xD800) * 0x400 + (v - 0xDC00)), bs)
    else .error .malformed
  else .ok (Char.ofNat u, bs)

/-- The bytes that an escape stands for, read behind its backslash. -/
def escape : Reader Bytes
  | [] => .error .ended
  | b :: rest =>
    match escaped? b with
    | some c => .ok ([c], rest)
    | none =>
      if b == 0x75 then do
        let (c, rest) ← numberedChar rest
        .ok (String.utf8EncodeChar c, rest)
      else .error .malformed

/-- The bytes of a text behind its opening quote, gathered in `acc` from the last to the first. The
    bytes, given as `fuel`, count the steps. -/
def textBytes : Bytes → Bytes → Bytes → Except Fault (Bytes × Bytes)
  | [], _, _ => .error .ended
  | _, _, [] => .error .ended
  | _ :: fuel, acc, b :: rest =>
    if b == quote then .ok (acc.reverse, rest)
    else if b == 0x5C then
      match escape rest with
      | .error e => .error e
      | .ok (cs, rest) => textBytes fuel (cs.reverse ++ acc) rest
    else if b < 0x20 then .error .malformed
    else textBytes fuel (b :: acc) rest

/-- A text behind its opening quote. Whether its bytes spell characters is asked at the end. -/
def textBody : Reader String := fun bs => do
  let (cs, rest) ← textBytes bs [] bs
  match Bytes.toText? cs with
  | some s => .ok (s, rest)
  | none => .error .malformed

/-- What follows a text that is not read, from behind its opening quote. The bytes, given as
    `fuel`, count the steps. -/
def skipBodyFrom : Bytes → Bytes → Except Fault Bytes
  | [], _ => .error .ended
  | _, [] => .error .ended
  | _ :: fuel, b :: rest =>
    if b == quote then .ok rest
    else if b == 0x5C then
      match rest with
      | [] => .error .ended
      | c :: rest =>
        if (escaped? c).isSome then skipBodyFrom fuel rest
        else if c == 0x75 then
          match hexUnit rest with
          | .error e => .error e
          | .ok (_, rest) => skipBodyFrom fuel rest
        else .error .malformed
    else if b < 0x20 then .error .malformed
    else skipBodyFrom fuel rest

@[inherit_doc skipBodyFrom]
def skipBody (bs : Bytes) : Except Fault Bytes :=
  skipBodyFrom bs bs

end RevisionWatch.Json
