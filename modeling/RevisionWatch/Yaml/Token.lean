import RevisionWatch.Yaml.Property
import RevisionWatch.Yaml.Scalar
/-!
# Tokens

The marks of a YAML text in the order in which a reader of nodes needs them. Two kinds are not
written: where the lines of a block begin further in, the block is opened, and where they end, it
is closed again; and the key of a pair is known only once its colon is met, so its mark is put in
front of it then. A place where such a key may have begun is a `Candidate`; it is given up at the
end of its line or 1024 characters on, which is a fault where nothing but a key could have stood.
-/

namespace RevisionWatch.Yaml

/-- A mark of a text. -/
inductive Token where
  | directive (d : Directive)
  | documentStart
  | documentEnd
  | blockSequenceStart
  | blockMappingStart
  | blockEnd
  | flowSequenceStart
  | flowSequenceEnd
  | flowMappingStart
  | flowMappingEnd
  | blockEntry
  | flowEntry
  | key
  | value
  | alias (name : List Char)
  | anchor (name : List Char)
  | tag (t : Tag)
  | scalar (style : Style) (text : String)
deriving DecidableEq, Repr, Inhabited

/-- A place where a key may have begun: where it is, how many tokens stand before it, and whether
    it has to be one. -/
structure Candidate where
  place : Cursor
  before : Nat
  required : Bool
deriving Repr, Inhabited

/-- How far a key may reach. -/
def keyReach : Nat := 1024

/-- The state between two tokens: the place, the tokens so far with the last in front, the
    indentation of the innermost block (−1 outside all) and of those around it, whether a key may
    begin here, and for each open flow collection and the block around them the candidate for a
    key. -/
structure Lexer where
  place : Cursor
  tokens : List Token := []
  indent : Int := -1
  outer : List Int := []
  keyAllowed : Bool := true
  candidate : Option Candidate := none
  suspended : List (Option Candidate) := []
deriving Inhabited

namespace Lexer

/-- The text is inside a flow collection. -/
def inFlow (l : Lexer) : Bool :=
  !l.suspended.isEmpty

/-- Adds a token. -/
def emit (l : Lexer) (t : Token) : Lexer :=
  { l with tokens := t :: l.tokens }

/-- Adds tokens behind the first `n`. -/
def insertAt (l : Lexer) (n : Nat) (ts : List Token) : Lexer :=
  let back := l.tokens.length - n
  { l with tokens := l.tokens.take back ++ (ts.reverse ++ l.tokens.drop back) }

/-! ## 1. Blocks and keys -/

/-- Opens a block at a column that lies further in. -/
def opens (l : Lexer) (column : Nat) : Bool :=
  !l.inFlow && l.indent < (column : Int)

/-- The lexer inside a block at a column. -/
def indented (l : Lexer) (column : Nat) : Lexer :=
  { l with outer := l.indent :: l.outer, indent := column }

/-- Opens a block here, if this column lies further in. -/
def openBlock (l : Lexer) (t : Token) : Lexer :=
  if l.opens l.place.column then (l.indented l.place.column).emit t else l

/-- Closes the blocks that lie further in than a column. -/
def closeBlocks (column : Int) : Nat → Lexer → Lexer
  | 0, l => l
  | fuel + 1, l =>
    if l.inFlow || l.indent ≤ column then l
    else
      closeBlocks column fuel
        { l.emit .blockEnd with indent := l.outer.headD (-1), outer := l.outer.drop 1 }

/-- Closes the blocks that lie further in than a column. -/
def unindent (l : Lexer) (column : Int) : Lexer :=
  closeBlocks column (l.outer.length + 1) l

/-- Gives up the candidate of the innermost collection, unless it has to be a key. -/
def dropCandidate (l : Lexer) : Option Lexer :=
  if l.candidate.any (·.required) then none else some { l with candidate := none }

/-- Whether a candidate lies too far back. -/
def Candidate.isStale (c : Candidate) (place : Cursor) : Bool :=
  c.place.line < place.line || c.place.index + keyReach < place.index

/-- A candidate that may still be a key here; a fault if it had to be one. -/
def refreshed (place : Cursor) : Option Candidate → Option (Option Candidate)
  | none => some none
  | some c =>
    if Candidate.isStale c place then (if c.required then none else some none) else some (some c)

/-- Gives up every candidate that lies too far back. -/
def refresh (l : Lexer) : Option Lexer := do
  let candidate ← refreshed l.place l.candidate
  let suspended ← l.suspended.mapM (refreshed l.place)
  some { l with candidate, suspended }

/-- Takes this place for a candidate, if a key may begin here. In the block style it has to be one
    at the column of its block. -/
def noteCandidate (l : Lexer) : Option Lexer :=
  if l.keyAllowed then do
    let l ← l.dropCandidate
    let required := !l.inFlow && l.indent == (l.place.column : Int)
    some { l with candidate := some ⟨l.place, l.tokens.length, required⟩ }
  else some l

/-! ## 2. To the next token -/

/-- Passes gaps, comments and breaks. A tab is a gap only where no block can begin. A break outside
    the flow style allows a key. -/
def passBlanks : Nat → Lexer → Lexer
  | 0, l => l
  | fuel + 1, l =>
    let place := if l.place.index == 0 && l.place.sees 0 byteOrderMark then l.place.skip 1
      else l.place
    let tabs := l.inFlow || !l.keyAllowed
    let place := (place.skipWhile fun ch => ch == ' ' || (tabs && ch == '\t')).skipComment
    if place.atBreak then
      passBlanks fuel
        { l with place := place.skipBreak, keyAllowed := l.keyAllowed || !l.inFlow }
    else { l with place }

/-! ## 3. The tokens -/

/-- A mark of `n` characters that ends all blocks. -/
def documentMark (l : Lexer) (t : Token) : Option Lexer := do
  let l ← (l.unindent (-1)).dropCandidate
  some { l.emit t with keyAllowed := false, place := l.place.skip 3 }

/-- A directive. -/
def directiveLine (l : Lexer) : Option Lexer := do
  let l ← (l.unindent (-1)).dropCandidate
  let (d, place) ← directive (l.place.skip 1)
  some { l.emit (.directive d) with keyAllowed := false, place }

/-- Opens a flow collection. -/
def openFlow (l : Lexer) (t : Token) : Option Lexer := do
  let l ← l.noteCandidate
  some { l.emit t with
    suspended := l.candidate :: l.suspended, candidate := none, keyAllowed := true,
    place := l.place.skip 1 }

/-- Closes a flow collection. -/
def closeFlow (l : Lexer) (t : Token) : Option Lexer := do
  let l ← l.dropCandidate
  some { l.emit t with
    candidate := l.suspended.headD none, suspended := l.suspended.drop 1, keyAllowed := false,
    place := l.place.skip 1 }

/-- The comma between two items. -/
def flowEntry (l : Lexer) : Option Lexer := do
  let l ← l.dropCandidate
  some { l.emit .flowEntry with keyAllowed := true, place := l.place.skip 1 }

/-- The hyphen before an item. -/
def blockEntry (l : Lexer) : Option Lexer :=
  if !l.inFlow && !l.keyAllowed then none
  else do
    let l ← (l.openBlock .blockSequenceStart).dropCandidate
    some { l.emit .blockEntry with keyAllowed := true, place := l.place.skip 1 }

/-- The question mark before a key. -/
def explicitKey (l : Lexer) : Option Lexer :=
  if !l.inFlow && !l.keyAllowed then none
  else do
    let l ← (l.openBlock .blockMappingStart).dropCandidate
    some { l.emit .key with keyAllowed := !l.inFlow, place := l.place.skip 1 }

/-- The colon before a value. A candidate becomes the key; else the key is empty or was marked. -/
def valueMark (l : Lexer) : Option Lexer :=
  match l.candidate with
  | some k =>
    let l := { l with candidate := none, keyAllowed := false }
    let l :=
      if l.opens k.place.column then
        (l.indented k.place.column).insertAt k.before [.blockMappingStart, .key]
      else l.insertAt k.before [.key]
    some { l.emit .value with place := l.place.skip 1 }
  | none =>
    if !l.inFlow && !l.keyAllowed then none
    else
      let l := l.openBlock .blockMappingStart
      some { l.emit .value with keyAllowed := !l.inFlow, place := l.place.skip 1 }

/-- An anchor, or a reference to one. -/
def named (l : Lexer) (t : List Char → Token) : Option Lexer := do
  let l ← l.noteCandidate
  let (name, place) ← anchorName (l.place.skip 1)
  some { l.emit (t name) with keyAllowed := false, place }

/-- A tag. -/
def tagged (l : Lexer) : Option Lexer := do
  let l ← l.noteCandidate
  let (t, place) ← tag l.inFlow l.place
  some { l.emit (.tag t) with keyAllowed := false, place }

/-- A block scalar. -/
def blockScalar (l : Lexer) (style : Style) : Option Lexer := do
  let l ← l.dropCandidate
  let (cs, place) ← block (style == .folded) l.indent (l.place.skip 1)
  some { l.emit (.scalar style (String.ofList cs)) with keyAllowed := true, place }

/-- A quoted scalar. -/
def quotedScalar (l : Lexer) (style : Style) : Option Lexer := do
  let l ← l.noteCandidate
  let (cs, place) ← quoted (style == .singleQuoted) (l.place.skip 1)
  some { l.emit (.scalar style (String.ofList cs)) with keyAllowed := false, place }

/-- A plain scalar. A break behind it allows a key. -/
def plainScalar (l : Lexer) : Option Lexer := do
  let l ← l.noteCandidate
  let ((cs, broken), place) ← plain l.inFlow (l.indent + 1) l.place
  some { l.emit (.scalar .plain (String.ofList cs)) with keyAllowed := broken, place }

/-- Whether a plain scalar may start here. -/
def startsPlain (l : Lexer) (ch : Char) : Bool :=
  !("-?:,[]\x7b\x7d#&*!|>'\"%@\x60".toList.contains ch || isGap ch || isBreak ch) ||
    (ch == '-' && !(l.place.ahead 1).any isGap) ||
    (!l.inFlow && (ch == '?' || ch == ':') && !l.place.isOpenAt 1)

/-- The end of the text, as if a new line began there. -/
def finish (l : Lexer) : Option Lexer := do
  let place := if l.place.column == 0 then l.place
    else { l.place with column := 0, line := l.place.line + 1 }
  ({ l with place }.unindent (-1)).dropCandidate

/-- The next token at a character. -/
def tokenAt (l : Lexer) (ch : Char) : Option Lexer :=
  let apart := l.place.isOpenAt 1
  if l.place.column == 0 && ch == '%' then l.directiveLine
  else if l.place.atDocumentMark then
    l.documentMark (if ch == '-' then .documentStart else .documentEnd)
  else if ch == '[' then l.openFlow .flowSequenceStart
  else if ch == '{' then l.openFlow .flowMappingStart
  else if ch == ']' then l.closeFlow .flowSequenceEnd
  else if ch == '}' then l.closeFlow .flowMappingEnd
  else if ch == ',' then l.flowEntry
  else if ch == '-' && apart then l.blockEntry
  else if ch == '?' && (l.inFlow || apart) then l.explicitKey
  else if ch == ':' && (l.inFlow || apart) then l.valueMark
  else if ch == '*' then l.named .alias
  else if ch == '&' then l.named .anchor
  else if ch == '!' then l.tagged
  else if ch == '|' && !l.inFlow then l.blockScalar .literal
  else if ch == '>' && !l.inFlow then l.blockScalar .folded
  else if ch == '\'' then l.quotedScalar .singleQuoted
  else if ch == '"' then l.quotedScalar .doubleQuoted
  else if l.startsPlain ch then l.plainScalar
  else none

/-- All tokens from here on. Every token but the last takes a character. -/
def run : Nat → Lexer → Option Lexer
  | 0, _ => none
  | fuel + 1, l => do
    let l ← (passBlanks (fuel + 1) l).refresh
    let l := l.unindent l.place.column
    match l.place.rest with
    | [] => l.finish
    | ch :: _ =>
      let l ← l.tokenAt ch
      run fuel l

end Lexer

/-- The characters of a text without the mark of its byte order. -/
def withoutMark : List Char → List Char
  | [] => []
  | c :: cs => if c == byteOrderMark then cs else c :: cs

/-- The tokens of a text; none if the text is no YAML. -/
def tokens? (s : String) : Option (List Token) :=
  let cs := withoutMark s.toList
  if !cs.all isAllowed then none
  else (Lexer.run (cs.length + 1) { place := ⟨cs, 0, 0, 0⟩ }).map fun l => l.tokens.reverse

end RevisionWatch.Yaml
