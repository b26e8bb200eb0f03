/-!
# A place in a YAML text

What a character means in YAML depends on where it stands: how far into its line, and how far
behind the place where a key may have begun. A cursor is the text that is left with the count of
characters, lines and columns behind it. Five line breaks are known; all but the two separators of
Unicode are read as a line feed.
-/

namespace RevisionWatch.Yaml

/-! ## 1. Characters -/

/-- The characters a YAML text may hold at all. -/
def isAllowed (c : Char) : Bool :=
  let n := c.toNat
  n == 0x09 || n == 0x0A || n == 0x0D || (0x20 ≤ n && n ≤ 0x7E) || n == 0x85 ||
    (0xA0 ≤ n && n ≤ 0xD7FF) || (0xE000 ≤ n && n ≤ 0xFFFD) || 0x10000 ≤ n

/-- A space or a tab. -/
def isGap (c : Char) : Bool :=
  c == ' ' || c == '\t'

/-- A character that ends a line; carriage return and line feed together end one. -/
def isBreak (c : Char) : Bool :=
  c == '\r' || c == '\n' || c == '\x85' || c == '\u2028' || c == '\u2029'

/-- Letters, digits, low line and hyphen, of which names of anchors and handles are made. -/
def isWord (c : Char) : Bool :=
  c.isAlphanum || c == '_' || c == '-'

/-- The five brackets and the comma of the flow style. -/
def isFlowMark (c : Char) : Bool :=
  c == ',' || c == '[' || c == ']' || c == '{' || c == '}'

/-- The byte order mark. -/
def byteOrderMark : Char := '\uFEFF'

/-! ## 2. Cursors -/

/-- A place: what is left, and what has been passed. -/
structure Cursor where
  rest : List Char
  index : Nat := 0
  line : Nat := 0
  column : Nat := 0
deriving Repr, Inhabited

namespace Cursor

/-- The character `n` places ahead. -/
def ahead (c : Cursor) (n : Nat) : Option Char :=
  c.rest[n]?

/-- Whether the character `n` places ahead is a given one. -/
def sees (c : Cursor) (n : Nat) (ch : Char) : Bool :=
  c.ahead n == some ch

/-- Whether a gap, a break or the end lies `n` places ahead. -/
def isOpenAt (c : Cursor) (n : Nat) : Bool :=
  match c.ahead n with
  | none => true
  | some ch => isGap ch || isBreak ch

/-- Whether a break or the end lies here. -/
def atLineEnd (c : Cursor) : Bool :=
  match c.rest with
  | [] => true
  | ch :: _ => isBreak ch

/-- Whether a gap lies here. -/
def atGap (c : Cursor) : Bool :=
  match c.rest with
  | [] => false
  | ch :: _ => isGap ch

/-- Whether a break lies here. -/
def atBreak (c : Cursor) : Bool :=
  match c.rest with
  | [] => false
  | ch :: _ => isBreak ch

/-- The cursor `n` characters on, no break among them. -/
def skip (c : Cursor) (n : Nat) : Cursor :=
  { c with rest := c.rest.drop n, index := c.index + n, column := c.column + n }

/-- The cursor behind the break that lies here, with the character that the break stands for. -/
def breakLine (c : Cursor) : Option Char × Cursor :=
  match c.rest with
  | '\r' :: '\n' :: rest => (some '\n', ⟨rest, c.index + 2, c.line + 1, 0⟩)
  | ch :: rest =>
    if ch == '\r' || ch == '\n' || ch == '\x85' then
      (some '\n', ⟨rest, c.index + 1, c.line + 1, 0⟩)
    else if isBreak ch then (some ch, ⟨rest, c.index + 1, c.line + 1, 0⟩)
    else (none, c)
  | [] => (none, c)

/-- The cursor behind the break that lies here, if one does. -/
def skipBreak (c : Cursor) : Cursor :=
  c.breakLine.2

/-- The cursor at the first character that a class does not hold. -/
def skipWhile (p : Char → Bool) (c : Cursor) : Cursor :=
  c.skip (c.rest.takeWhile p).length

/-- Whether `---` or `...` stands at the start of this line, as a word of its own. -/
def atDocumentMark (c : Cursor) : Bool :=
  c.column == 0 &&
    ((c.sees 0 '-' && c.sees 1 '-' && c.sees 2 '-') ||
      (c.sees 0 '.' && c.sees 1 '.' && c.sees 2 '.')) &&
    c.isOpenAt 3

/-- The cursor at the end of the comment that starts here, if one does. -/
def skipComment (c : Cursor) : Cursor :=
  if c.sees 0 '#' then c.skipWhile (!isBreak ·) else c

/-- The cursor behind the rest of a line that holds no more than a comment. -/
def endLine? (c : Cursor) : Option Cursor :=
  let c := (c.skipWhile isGap).skipComment
  if c.atLineEnd then some c.skipBreak else none

end Cursor

end RevisionWatch.Yaml
