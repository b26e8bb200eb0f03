import RevisionWatch.Decimal.Digits
import RevisionWatch.Http.Response
import RevisionWatch.Text.Quoted
/-!
# Where the agent is told

An address names an authority, a path and a query. A reference is read against the address on
which it was met: it may be a whole address, or leave out everything up to its host, its path or
its query. Steps of a path to itself and to what is above it are taken out, and characters that
cannot stand in a path or a query are escaped. A reference of another scheme leads elsewhere.
-/

namespace RevisionWatch.Agent

/-- Who answers at an address: a host, and the number under which it listens for this service. -/
structure Authority where
  host : String
  number : Nat
deriving DecidableEq, Repr, Inhabited

/-- The number under which a host listens for plain HTTP. -/
def Authority.usualNumber : Nat := 80

/-- An address that is reached over plain HTTP. -/
structure Address where
  authority : Authority
  path : List Char
  query : Option (List Char)
deriving DecidableEq, Repr, Inhabited

/-- Where a reference leads. -/
inductive Target where
  | here (a : Address)
  | elsewhere
  | nowhere
deriving DecidableEq, Repr, Inhabited

/-! ## 1. Characters -/

/-- One byte behind a percent sign. -/
def escapedByte (b : UInt8) : List Char :=
  let ds := (Nat.toDigits 16 b.toNat).map Char.toUpper
  '%' :: List.replicate (2 - ds.length) '0' ++ ds

/-- The characters with those of a class, the controls and everything beyond ASCII escaped. -/
def escape (odd : List Char) (cs : List Char) : List Char :=
  cs.flatMap fun c =>
    if c.toNat < 0x20 || 0x7E < c.toNat || odd.contains c then
      (String.utf8EncodeChar c).flatMap escapedByte
    else [c]

/-- What is escaped in a path. -/
def oddInPath : List Char :=
  " \"#<>?\x60\x7b\x7d".toList

/-- What is escaped in a query. -/
def oddInQuery : List Char :=
  " \"#<>'".toList

/-- The characters of an address without the blanks and controls around it and the tabs and breaks
    inside. -/
def clean (cs : List Char) : List Char :=
  let isEdge (c : Char) : Bool := c.toNat ≤ 0x20
  (((cs.dropWhile isEdge).reverse.dropWhile isEdge).reverse).filter
    fun c => !(c == '\t' || c == '\n' || c == '\r')

/-- A slash of either lean. -/
def isSlash (c : Char) : Bool :=
  c == '/' || c == '\\'

/-! ## 2. Paths -/

/-- The parts of a path between its slashes. -/
def segments (cs : List Char) : List (List Char) :=
  go [] cs
where
  go (acc : List Char) : List Char → List (List Char)
    | [] => [acc.reverse]
    | c :: cs => if isSlash c then acc.reverse :: go [] cs else go (c :: acc) cs

/-- A segment with its escaped dots written out. -/
def plainDots : List Char → List Char
  | '%' :: '2' :: 'e' :: cs => '.' :: plainDots cs
  | '%' :: '2' :: 'E' :: cs => '.' :: plainDots cs
  | c :: cs => c :: plainDots cs
  | [] => []

/-- The segments that are left of a path once its steps are taken, behind those in `acc` with the
    last in front. A step at the end leaves an empty segment. -/
def walk : List (List Char) → List (List Char) → List (List Char)
  | acc, [] => acc.reverse
  | acc, s :: rest =>
    let dots := plainDots s
    if dots == ['.', '.'] then walk (if rest.isEmpty then [] :: acc.drop 1 else acc.drop 1) rest
    else if dots == ['.'] then walk (if rest.isEmpty then [] :: acc else acc) rest
    else walk (escape oddInPath s :: acc) rest

/-- A path from its segments. -/
def joinSegments (ss : List (List Char)) : List Char :=
  if ss.isEmpty then ['/'] else ss.flatMap ('/' :: ·)

/-! ## 3. References -/

/-- The parts of a reference behind its scheme: the text before the query, and the query. What
    stands behind a number sign is left out. -/
def pathAndQuery (cs : List Char) : List Char × Option (List Char) :=
  let cs := cs.takeWhile (· != '#')
  let path := cs.takeWhile (· != '?')
  (path, (cs.drop path.length).tail?.map (escape oddInQuery))

/-- The authority of a text: a host, and a number behind a colon if it is not the usual one. -/
def Authority.of? (cs : List Char) : Option Authority :=
  let host := cs.takeWhile (· != ':')
  let number := (cs.drop host.length).drop 1
  if host.isEmpty then none
  else
    let name := String.ofList (host.map Text.lowerChar)
    if number.isEmpty then some ⟨name, usualNumber⟩
    else (Decimal.bounded? 10 Decimal.word16 number).map fun n => ⟨name, n⟩

/-- The text behind the last sign that ends a user's name. -/
def afterUser (cs : List Char) : List Char :=
  (cs.reverse.takeWhile (· != '@')).reverse

/-- The target of a reference that names its host. -/
def ofAuthority (cs : List Char) : Target :=
  let (path, query) := pathAndQuery cs
  let authority := path.takeWhile (!isSlash ·)
  match Authority.of? (afterUser authority) with
  | none => .nowhere
  | some who =>
    let rest := (path.drop authority.length).drop 1
    .here ⟨who, joinSegments (walk [] (segments rest)), query⟩

/-- The target of a reference that leaves out its host. -/
def ofPath (base : Address) (cs : List Char) : Target :=
  let (path, query) := pathAndQuery cs
  match path with
  | [] =>
    .here { base with query := if query.isSome then query else base.query }
  | c :: rest =>
    if isSlash c then
      .here { base with path := joinSegments (walk [] (segments rest)), query }
    else
      let above := (segments (base.path.drop 1)).dropLast
      .here { base with path := joinSegments (walk [] (above ++ segments path)), query }

/-- The scheme of a reference, in small letters, and the text behind it. -/
def scheme? (cs : List Char) : Option (String × List Char) :=
  match cs with
  | [] => none
  | c :: _ =>
    let name := cs.takeWhile fun c => c.isAlphanum || c == '+' || c == '-' || c == '.'
    let rest := cs.drop name.length
    if c.isAlpha && rest.head? == some ':' then
      some (String.ofList (name.map Text.lowerChar), rest.drop 1)
    else none

/-- Where a reference leads that was met at an address, or at none. -/
def Target.of (base : Option Address) (text : String) : Target :=
  let cs := clean text.toList
  match scheme? cs, base with
  | some (scheme, rest), base =>
    if scheme != "http" then .elsewhere
    else
      let slashes := (rest.takeWhile isSlash).length
      match base with
      | some a => if slashes < 2 then ofPath a rest else ofAuthority (rest.drop slashes)
      | none => ofAuthority (rest.drop slashes)
  | none, none => .nowhere
  | none, some a =>
    match cs with
    | x :: y :: rest =>
      if isSlash x && isSlash y then ofAuthority (rest.dropWhile isSlash) else ofPath a cs
    | _ => ofPath a cs

/-- The path and the query that a request asks for. -/
def Address.target (a : Address) : String :=
  String.ofList <| a.path ++
    match a.query with
    | none => []
    | some q => '?' :: q

end RevisionWatch.Agent
