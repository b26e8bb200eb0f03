import RevisionWatch.Decimal.Digits
import RevisionWatch.Text.Blank
import RevisionWatch.Text.Bytes
/-!
# Responses

One connection carries one request, so a response is everything the connection gave until it was
closed: a status line, header lines, a blank line, and a body. How much of what follows the blank
line is the body, the headers say: chunks if the first transfer coding names them, else as many
bytes as the first content length says, else everything.

The checks are made in the order of the bytes, and the first that fails is the fault. Three things
are looser than a strict reader would have them: the status may carry a leading plus and any
digits a 16-bit word holds, so may the length and a chunk's size in their words, and what follows
the last chunk is not looked at.
-/

namespace RevisionWatch.Http

/-- Why bytes are no response. The last four are found by whoever reads the connection: a count of
    bytes that its word cannot hold, a response above its limit, a connection that gave nothing,
    and a fault of which only a description is left. -/
inductive Fault where
  | noDelimiter
  | headersNotText
  | unexpectedStatusLine (line : String)
  | invalidStatus (line : String)
  | invalidLength (value : String)
  | truncatedBody (wanted got : Nat)
  | truncatedSize
  | sizeNotText
  | invalidSize (digits : String)
  | truncatedChunk
  | unterminatedChunk
  | overflow
  | exceeds (limit : Nat)
  | closedEarly
  | described (detail : String)
deriving DecidableEq, Repr, Inhabited

/-- The text of a fault. -/
def Fault.message : Fault → String
  | .noDelimiter => "response missing header delimiter"
  | .headersNotText => "response headers are not UTF-8"
  | .unexpectedStatusLine line => "unexpected status line '" ++ line ++ "'"
  | .invalidStatus line => "invalid status in '" ++ line ++ "'"
  | .invalidLength value => "invalid content-length '" ++ value ++ "'"
  | .truncatedBody wanted got =>
    "truncated body: expected " ++ Decimal.text wanted ++ " bytes, got " ++ Decimal.text got
  | .truncatedSize => "truncated chunk size line"
  | .sizeNotText => "chunk size is not UTF-8"
  | .invalidSize digits => "invalid chunk size '" ++ digits ++ "'"
  | .truncatedChunk => "truncated chunk"
  | .unterminatedChunk => "chunk not terminated by CRLF"
  | .overflow => "attempt to add with overflow"
  | .exceeds limit => "response exceeds " ++ Decimal.text limit ++ " bytes"
  | .closedEarly => "daemon closed connection before responding"
  | .described detail => detail

/-- Header names, in small letters, and values, in the order of the lines. -/
abbrev Headers := List (String × String)

/-- A response that was read whole. -/
structure Response where
  status : Nat
  headers : Headers
  body : Bytes
deriving DecidableEq, Repr, Inhabited

/-! ## 1. Headers -/

/-- The value of the first header of a name, the case of its letters ignored. -/
def Headers.get? (hs : Headers) (name : String) : Option String :=
  hs.lookup (Text.lower name)

@[inherit_doc Headers.get?]
def Response.header? (r : Response) (name : String) : Option String :=
  Headers.get? r.headers name

/-- A status from 200 to 299. -/
def isSuccess (status : Nat) : Bool :=
  200 ≤ status && status < 300

@[inherit_doc isSuccess]
def Response.succeeded (r : Response) : Bool :=
  isSuccess r.status

/-- The lines of a text, each pair of carriage return and line feed ending one. The line that is
    being read is gathered in `acc` from the last character to the first. -/
def linesFrom (acc : List Char) : List Char → List (List Char)
  | [] => [acc.reverse]
  | '\r' :: '\n' :: cs => acc.reverse :: linesFrom [] cs
  | c :: cs => linesFrom (c :: acc) cs

/-- The text before the first of a character, and the text behind it. -/
def cut? (mark : Char) : List Char → Option (List Char × List Char)
  | [] => none
  | c :: cs =>
    if c == mark then some ([], cs) else (cut? mark cs).map fun (front, back) => (c :: front, back)

/-- The header of a line; a line without a colon is none. -/
def headerOf? (line : List Char) : Option (String × String) :=
  (cut? ':' line).map fun (name, value) =>
    (String.ofList ((Text.trimChars name).map Text.lowerChar),
      String.ofList (Text.trimChars value))

/-- What a status line starts with. -/
def versionMark : List Char :=
  "HTTP/1.".toList

/-- The status that a status line gives: the second of its words, parted by single spaces. -/
def statusOf (line : List Char) : Except Fault Nat :=
  let version := line.takeWhile (· != ' ')
  if !versionMark.isPrefixOf version then .error (.unexpectedStatusLine (String.ofList line))
  else
    match cut? ' ' line with
    | none => .error (.invalidStatus (String.ofList line))
    | some (_, rest) =>
      match Decimal.signed? 10 Decimal.word16 (rest.takeWhile (· != ' ')) with
      | some n => .ok n
      | none => .error (.invalidStatus (String.ofList line))

/-! ## 2. Bodies -/

/-- The size that a chunk's line spells: a hexadecimal numeral, blanks around it, before any
    extension. -/
def chunkSize (line : Bytes) : Except Fault Nat :=
  match Bytes.toText? line with
  | none => .error .sizeNotText
  | some s =>
    let numeral := Text.trimChars (s.toList.takeWhile (· != ';'))
    match Decimal.signed? 16 Decimal.word64 numeral with
    | some n => .ok n
    | none => .error (.invalidSize (String.ofList numeral))

/-- The data of the chunks up to the one of size zero, gathered in `acc` from the last to the
    first. The end of a chunk is its size and two bytes more, and that sum has to fit its word. -/
def chunksFrom : Nat → List Bytes → Bytes → Except Fault Bytes
  | 0, _, _ => .error .truncatedSize
  | fuel + 1, acc, bs =>
    match Bytes.splitAt? Bytes.crlf bs with
    | none => .error .truncatedSize
    | some (line, rest) =>
      match chunkSize line with
      | .error e => .error e
      | .ok size =>
        if size = 0 then .ok acc.reverse.flatten
        else if Decimal.word64 ≤ size + 2 then .error .overflow
        else
          match rest.drop size with
          | a :: b :: more =>
            if [a, b] == Bytes.crlf then chunksFrom fuel (rest.take size :: acc) more
            else .error .unterminatedChunk
          | _ => .error .truncatedChunk

/-- The data of the chunks. Every chunk takes a byte, so a count of the bytes is fuel enough. -/
def chunks (bs : Bytes) : Except Fault Bytes :=
  chunksFrom (bs.length + 1) [] bs

/-- As many bytes as a content length says. -/
def measured (length : String) (bs : Bytes) : Except Fault Bytes :=
  match Decimal.signed? 10 Decimal.word64 length.toList with
  | none => .error (.invalidLength length)
  | some n => if bs.length < n then .error (.truncatedBody n bs.length) else .ok (bs.take n)

/-- Whether a text holds another. -/
def holds (part : List Char) : List Char → Bool
  | [] => part.isEmpty
  | c :: cs => part.isPrefixOf (c :: cs) || holds part cs

/-- The first transfer coding names chunks. -/
def Headers.chunked (hs : Headers) : Bool :=
  match hs.get? "transfer-encoding" with
  | some value => holds "chunked".toList (Text.lower value).toList
  | none => false

/-- The body, framed as the headers say. -/
def frame (hs : Headers) (bs : Bytes) : Except Fault Bytes :=
  if hs.chunked then chunks bs
  else
    match hs.get? "content-length" with
    | some length => measured length bs
    | none => .ok bs

/-! ## 3. Responses -/

/-- The blank line between headers and body, with the end of the line before it. -/
def delimiter : Bytes := Bytes.crlf ++ Bytes.crlf

/-- Reads a response from all the bytes that a connection gave. -/
def Response.decode (bs : Bytes) : Except Fault Response := do
  match Bytes.splitAt? delimiter bs with
  | none => .error .noDelimiter
  | some (head, rest) =>
    match Bytes.toText? head with
    | none => .error .headersNotText
    | some head =>
      match linesFrom [] head.toList with
      | [] => .error .noDelimiter
      | line :: lines =>
        let status ← statusOf line
        let headers := lines.filterMap headerOf?
        let body ← frame headers rest
        .ok ⟨status, headers, body⟩

end RevisionWatch.Http
