import RevisionWatch.Agent.Address
import RevisionWatch.Agent.Outcome
import RevisionWatch.Http.Reply
/-!
# Telling the agent to update

The agent is told by a request, and its answer is the status of the response. A response that
points to another place is followed there, up to five requests in all. Whatever gives no status
-- nobody there, no response, too many places -- is an agent that cannot be reached.
-/

namespace RevisionWatch.Agent

/-! ## 1. The head of a response -/

/-- What is read of a response: its status, and where it points to. -/
structure Head where
  status : Nat
  location : Option String
deriving DecidableEq, Repr, Inhabited

/-- The next line, and what follows. It ends with a carriage return and a line feed. -/
def line? (bs : Bytes) : Option (Bytes × Bytes) :=
  match Bytes.splitAt? [0x0A] bs with
  | none => none
  | some (line, rest) =>
    if line.getLast? == some 0x0D then some (line.dropLast, rest) else none

/-- The status of a status line: a version of one digit, a point and one digit, and three digits
    for the status. -/
def statusOf? (line : Bytes) : Option Nat := do
  let s ← Bytes.toText? line
  let cs := s.toList
  if !cs.all (·.toNat < 0x80) then none
  else
    let version := cs.takeWhile (· != ' ')
    let status := ((cs.drop version.length).drop 1).takeWhile (· != ' ')
    match version with
    | ['H', 'T', 'T', 'P', '/', major, '.', minor] =>
      if major.isDigit && minor.isDigit && status.length == 3 then Decimal.value? 10 status
      else none
    | _ => none

/-- A character of a header's name. -/
def isNameByte (b : UInt8) : Bool :=
  let c := Char.ofNat b.toNat
  c.isAlphanum || "!#$%&'*+-.^_|~\x60".toList.contains c

/-- The name and the value of a header line. -/
def headerOf? (line : Bytes) : Option (Bytes × Bytes) :=
  let name := line.takeWhile isNameByte
  match line.drop name.length with
  | 0x3A :: value => some (name, value)
  | _ => none

/-- The most headers that a response may have. -/
def headerLimit : Nat := 100

/-- The headers up to the empty line; lines that are none are passed over. -/
def headersFrom : Nat → List (Bytes × Bytes) → Bytes → Option (List (Bytes × Bytes))
  | 0, _, _ => none
  | fuel + 1, acc, bs => do
    if headerLimit < acc.length then none
    else
      let (line, rest) ← line? bs
      if line.isEmpty then some acc.reverse
      else headersFrom fuel ((headerOf? line).toList ++ acc) rest

/-- The value of a header's bytes. -/
def valueText? (value : Bytes) : Option String :=
  (Bytes.toText? value).map Text.trim

/-- The head of a response. -/
def Head.of? (bs : Bytes) : Option Head := do
  let (line, rest) ← line? bs
  let status ← statusOf? line
  let headers ← headersFrom (rest.length + 1) [] rest
  let isLocation (h : Bytes × Bytes) : Bool :=
    (Bytes.toText? h.1).any fun name => Text.lower name == "location"
  some ⟨status, (headers.find? isLocation).bind fun h => valueText? h.2⟩

/-! ## 2. The call -/

/-- The most requests that are made for one call. -/
def requestLimit : Nat := 5

/-- Statuses that may point elsewhere. -/
def mayPoint (status : Nat) : Bool :=
  300 ≤ status && status < 399

/-- Statuses that are followed where they point. -/
def isFollowed (status : Nat) : Bool :=
  status == 301 || status == 302 || status == 303 || status == 307 || status == 308

/-- The outcome of a status. -/
def Outcome.ofStatus (status : Nat) : Outcome :=
  if Http.isSuccess status then .accepted status else .rejected status

/-- The agent as it can be reached: its authority, and its replies; nobody listens without. -/
structure Listener where
  authority : Authority
  replies : Option (List Http.Reply)
deriving Repr, Inhabited

/-- The first line of a request. -/
def requestLine (a : Address) : String :=
  "GET " ++ a.target ++ " HTTP/1.1"

/-- What came of a call, and the requests that reached the agent. -/
structure Call where
  outcome : Outcome
  requests : List String
deriving DecidableEq, Repr, Inhabited

/-- Makes a request for a target, and follows where it points. `sent` counts the requests of this
    call, `before` those of earlier ones; `reason` is what is said of an agent that cannot be
    reached. -/
def callFrom (l : Listener) (reason : String) (before : Nat) :
    Nat → Nat → Target → List String → Call
  | 0, _, _, lines => ⟨.unreachable reason, lines.reverse⟩
  | fuel + 1, sent, target, lines =>
    match target, l.replies with
    | .here a, some replies =>
      if a.authority = l.authority then
        let lines := requestLine a :: lines
        match Head.of? (Http.replyAt replies (before + sent)).sent with
        | none => ⟨.unreachable reason, lines.reverse⟩
        | some head =>
          if !mayPoint head.status then ⟨.ofStatus head.status, lines.reverse⟩
          else if requestLimit ≤ sent + 1 then ⟨.unreachable reason, lines.reverse⟩
          else
            match head.location with
            | none => ⟨.ofStatus head.status, lines.reverse⟩
            | some location =>
              match Target.of (some a) location with
              | .nowhere => ⟨.unreachable reason, lines.reverse⟩
              | next =>
                if isFollowed head.status then
                  callFrom l reason before fuel (sent + 1) next lines
                else ⟨.ofStatus head.status, lines.reverse⟩
      else ⟨.unreachable reason, lines.reverse⟩
    | _, _ => ⟨.unreachable reason, lines.reverse⟩

/-- Tells the agent at an address to update, after `before` requests that it has had already. -/
def call (l : Listener) (reason : String) (before : Nat) (address : String) : Call :=
  callFrom l reason before requestLimit 0 (Target.of none address) []

end RevisionWatch.Agent
