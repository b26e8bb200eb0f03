import RevisionWatch.Yaml.Cursor
import RevisionWatch.Decimal.Digits
/-!
# The text of a scalar

A scalar is written in one of five styles. A plain one ends where something else can begin; a
quoted one ends at its quote; in both, the line breaks inside are folded: one break is a space,
and of more the first is dropped (`Gap.joined`). A block scalar is made of the lines that are
indented below its header, folded or kept as they are, its last breaks chomped as the header says.
-/

namespace RevisionWatch.Yaml

/-- How a scalar is written. -/
inductive Style where
  | plain
  | singleQuoted
  | doubleQuoted
  | literal
  | folded
deriving DecidableEq, Repr, Inhabited

/-! ## 1. Gaps -/

/-- The gaps and breaks between two words: the blanks of the first line, then the first break, then
    the others, the last of them in front. A gap is broken once a break has been met, also one that
    was escaped. -/
structure Gap where
  broken : Bool := false
  blanks : List Char := []
  first : List Char := []
  others : List Char := []

/-- What a gap stands for between two words. -/
def Gap.joined (g : Gap) : List Char :=
  if g.broken then
    if g.first == ['\n'] then (if g.others.isEmpty then [' '] else g.others.reverse)
    else g.first ++ g.others.reverse
  else g.blanks

/-- Reads a gap to its end. Where a column is given, no tab may stand before it on a later line. -/
def gapFrom (indent : Option Int) : Nat → Gap → Cursor → Option (Gap × Cursor)
  | 0, g, c => some (g, c)
  | fuel + 1, g, c =>
    if c.atGap then
      let run := c.rest.takeWhile isGap
      let next := c.skip run.length
      if g.broken then
        let before := match indent with
          | some i => run.take (i - c.column).toNat
          | none => []
        if before.contains '\t' then none else gapFrom indent fuel g next
      else gapFrom indent fuel { g with blanks := g.blanks ++ run } next
    else if c.atBreak then
      let (b, next) := c.breakLine
      if g.broken then gapFrom indent fuel { g with others := b.toList ++ g.others } next
      else gapFrom indent fuel { g with broken := true, blanks := [], first := b.toList } next
    else some (g, c)

/-! ## 2. Plain scalars -/

/-- Where a plain scalar may not go on: at a colon with a gap behind it, and in the flow style at a
    flow mark. -/
def endsPlain (flow : Bool) (c : Cursor) : Bool :=
  (c.sees 0 ':' && c.isOpenAt 1) || (flow && (c.ahead 0).any isFlowMark)

/-- A colon with a flow mark behind it, which the flow style forbids inside a plain scalar. -/
def badColon (flow : Bool) (c : Cursor) : Bool :=
  flow && c.sees 0 ':' && (c.ahead 1).any fun ch => isFlowMark ch || ch == '?'

/-- One word of a plain scalar, gathered in `acc` from the last character to the first. -/
def plainWord (flow : Bool) : Nat → List Char → Cursor → Option (List Char × Cursor)
  | 0, acc, c => some (acc, c)
  | fuel + 1, acc, c =>
    match c.rest with
    | [] => some (acc, c)
    | ch :: _ =>
      if isGap ch || isBreak ch then some (acc, c)
      else if badColon flow c then none
      else if endsPlain flow c then some (acc, c)
      else plainWord flow fuel (ch :: acc) (c.skip 1)

/-- The words of a plain scalar behind those in `acc`. The truth value says that the gap behind the
    last word is broken. -/
def plainFrom (flow : Bool) (indent : Int) :
    Nat → Gap → List Char → Cursor → Option ((List Char × Bool) × Cursor)
  | 0, g, acc, c => some ((acc.reverse, g.broken), c)
  | fuel + 1, g, acc, c =>
    if c.atDocumentMark || c.sees 0 '#' then some ((acc.reverse, g.broken), c)
    else do
      let (word, next) ← plainWord flow fuel [] c
      if word.isEmpty then some ((acc.reverse, g.broken), next)
      else
        let acc := word ++ (g.joined.reverse ++ acc)
        if next.atGap || next.atBreak then
          let (g, next) ← gapFrom (some indent) fuel {} next
          if !flow && (next.column : Int) < indent then some ((acc.reverse, g.broken), next)
          else plainFrom flow indent fuel g acc next
        else some ((acc.reverse, false), next)

/-- A plain scalar, with whether a broken gap follows it. -/
def plain (flow : Bool) (indent : Int) (c : Cursor) : Option ((List Char × Bool) × Cursor) :=
  plainFrom flow indent (c.rest.length + 1) {} [] c

/-! ## 3. Quoted scalars -/

/-- The character of an escape of one letter. -/
def escape? (c : Char) : Option Char :=
  match c with
  | '0' => some '\x00'
  | 'a' => some '\x07'
  | 'b' => some '\x08'
  | 't' => some '\t'
  | '\t' => some '\t'
  | 'n' => some '\n'
  | 'v' => some '\x0b'
  | 'f' => some '\x0c'
  | 'r' => some '\r'
  | 'e' => some '\x1b'
  | ' ' => some ' '
  | '"' => some '"'
  | '/' => some '/'
  | '\\' => some '\\'
  | 'N' => some '\x85'
  | '_' => some '\xa0'
  | 'L' => some '\u2028'
  | 'P' => some '\u2029'
  | _ => none

/-- How many hexadecimal digits an escape by number has. -/
def escapeDigits? (c : Char) : Option Nat :=
  match c with
  | 'x' => some 2
  | 'u' => some 4
  | 'U' => some 8
  | _ => none

/-- The character of an escape, read behind its backslash. No surrogate is a character. -/
def escaped (c : Cursor) : Option (Char × Cursor) := do
  let ch ← c.ahead 0
  match escape? ch with
  | some e => some (e, c.skip 1)
  | none =>
    let n ← escapeDigits? ch
    let digits := (c.rest.drop 1).take n
    if digits.length < n then none
    else
      let value ← Decimal.value? 16 digits
      if (0xD800 ≤ value && value ≤ 0xDFFF) || 0x10FFFF < value then none
      else some (Char.ofNat value, c.skip (n + 1))

/-- One word of a quoted scalar, gathered in `acc` from the last character to the first. The truth
    value says that it ends with an escaped line break. -/
def quotedWord (single : Bool) :
    Nat → List Char → Cursor → Option ((List Char × Bool) × Cursor)
  | 0, acc, c => some ((acc, false), c)
  | fuel + 1, acc, c =>
    match c.rest with
    | [] => some ((acc, false), c)
    | ch :: _ =>
      if isGap ch || isBreak ch then some ((acc, false), c)
      else if single then
        if ch == '\'' then
          if c.sees 1 '\'' then quotedWord single fuel ('\'' :: acc) (c.skip 2)
          else some ((acc, false), c)
        else quotedWord single fuel (ch :: acc) (c.skip 1)
      else if ch == '"' then some ((acc, false), c)
      else if ch == '\\' then
        if (c.ahead 1).any isBreak then some ((acc, true), (c.skip 1).skipBreak)
        else
          match escaped (c.skip 1) with
          | none => none
          | some (e, c) => quotedWord single fuel (e :: acc) c
      else quotedWord single fuel (ch :: acc) (c.skip 1)

/-- The words of a quoted scalar behind those in `acc`, up to and with its quote. -/
def quotedFrom (single : Bool) : Nat → List Char → Cursor → Option (List Char × Cursor)
  | 0, _, _ => none
  | fuel + 1, acc, c =>
    if c.atDocumentMark || c.rest.isEmpty then none
    else do
      let ((acc, broken), c) ← quotedWord single fuel acc c
      if c.sees 0 (if single then '\'' else '"') then some (acc.reverse, c.skip 1)
      else
        let (g, c) ← gapFrom none fuel { broken } c
        quotedFrom single fuel (g.joined.reverse ++ acc) c

/-- A quoted scalar behind its opening quote. -/
def quoted (single : Bool) (c : Cursor) : Option (List Char × Cursor) :=
  quotedFrom single (c.rest.length + 1) [] c

/-! ## 4. Block scalars -/

/-- What happens to the breaks at the end of a block scalar. -/
inductive Chomp where
  | strip
  | clip
  | keep
deriving DecidableEq, Repr

/-- The sign of a chomping, if one stands here. -/
def chomp? (c : Cursor) : Option Chomp :=
  match c.ahead 0 with
  | some '+' => some .keep
  | some '-' => some .strip
  | _ => none

/-- The digit of an indentation, if one stands here; zero is none that may be given. -/
def increment? (c : Cursor) : Option Nat :=
  ((c.ahead 0).filter Char.isDigit).map fun ch => ch.toNat - '0'.toNat

/-- A header behind its mark: a chomping and an indentation, in either order, each optional. -/
def blockHeader (c : Cursor) : Option ((Chomp × Option Nat) × Cursor) :=
  let bounded (ch : Chomp) (n : Nat) (c : Cursor) : Option ((Chomp × Option Nat) × Cursor) :=
    if n = 0 then none else some ((ch, some n), c)
  match chomp? c with
  | some ch =>
    match increment? (c.skip 1) with
    | some n => bounded ch n (c.skip 2)
    | none => some ((ch, none), c.skip 1)
  | none =>
    match increment? c with
    | some n =>
      match chomp? (c.skip 1) with
      | some ch => bounded ch n (c.skip 2)
      | none => bounded .clip n (c.skip 1)
    | none => some ((.clip, none), c)

/-- The breaks before the next line that is not empty, and the widest indentation among their lines.
    Spaces are passed up to the indentation, all of them while that is not known; the breaks are
    gathered in `acc` from the last to the first. -/
def blockBreaks (indent : Option Nat) :
    Nat → Nat → List Char → Cursor → Option ((List Char × Nat) × Cursor)
  | 0, widest, acc, c => some ((acc.reverse, widest), c)
  | fuel + 1, widest, acc, c =>
    let inside (column : Nat) := indent.all (column < ·)
    let spaces := (c.rest.takeWhile (· == ' ')).length
    let c := c.skip (match indent with
      | none => spaces
      | some n => min spaces (n - c.column))
    let widest := max widest c.column
    if inside c.column && c.sees 0 '\t' then none
    else if c.atBreak then
      let (b, c) := c.breakLine
      blockBreaks indent fuel widest (b.toList ++ acc) c
    else some ((acc.reverse, widest), c)

/-- What has been read of a block scalar: its text from the last character to the first, the break
    behind its last line, the breaks behind that, and whether its last line starts with a gap. -/
structure Block where
  text : List Char := []
  ending : List Char := []
  breaks : List Char := []
  gapped : Bool := false

/-- The text with the breaks before the next line: a single one is folded to a space between lines
    that do not start with a gap. -/
def Block.continued (folded : Bool) (b : Block) (gapped : Bool) : List Char :=
  if folded && b.ending == ['\n'] && !b.gapped && !gapped then
    b.breaks.reverse ++ (if b.breaks.isEmpty then ' ' :: b.text else b.text)
  else b.breaks.reverse ++ (b.ending.reverse ++ b.text)

/-- The lines of a block scalar at an indentation. -/
def blockLines (folded : Bool) (indent : Nat) : Nat → Block → Cursor → Option (Block × Cursor)
  | 0, b, c => some (b, c)
  | fuel + 1, b, c =>
    if c.column == indent && !c.rest.isEmpty then do
      let gapped := c.atGap
      let line := c.rest.takeWhile (!isBreak ·)
      let text := line.reverse ++ b.continued folded gapped
      let (ending, c) := (c.skip line.length).breakLine
      let ((breaks, _), c) ← blockBreaks (some indent) fuel 0 [] c
      blockLines folded indent fuel ⟨text, ending.toList, breaks, gapped⟩ c
    else some (b, c)

/-- The text of a block scalar once its end is known. -/
def Block.chomped (chomp : Chomp) (b : Block) : List Char :=
  match chomp with
  | .strip => b.text.reverse
  | .clip => b.text.reverse ++ b.ending
  | .keep => b.text.reverse ++ b.ending ++ b.breaks

/-- A block scalar behind its mark, inside a block of the given indentation (−1 outside all). -/
def block (folded : Bool) (outer : Int) (c : Cursor) : Option (List Char × Cursor) := do
  let ((chomp, increment), c) ← blockHeader c
  let c ← c.endLine?
  let given := increment.map fun n => (max outer 0).toNat + n
  let ((breaks, widest), c) ← blockBreaks given (c.rest.length + 1) 0 [] c
  let indent := given.getD (max widest (max (outer + 1).toNat 1))
  let (b, c) ← blockLines folded indent (c.rest.length + 1) { breaks } c
  some (b.chomped chomp, c)

end RevisionWatch.Yaml
