import RevisionWatch.Text.Quoted
import RevisionWatch.Yaml.Meaning
/-!
# Writing YAML

A document is written as a mapping of scalars, one member a line, an inner mapping indented by two
spaces. A text is written in the barest style in which it reads back as the same text: plain, if
nothing in it could be a mark and it could be nothing but a text; between single quotes; as lines
of their own if it has line feeds; and between double quotes, every odd character escaped, if
nothing else will do.
-/

namespace RevisionWatch.Yaml

/-! ## 1. What a text holds -/

/-- A character that may stand for itself. -/
def isPrintable (c : Char) : Bool :=
  let n := c.toNat
  n == 0x0A || (0x20 ≤ n && n ≤ 0x7E) || (0xA0 ≤ n && n ≤ 0xD7FF) ||
    (0xE000 ≤ n && n ≤ 0xFFFD && n != 0xFEFF) || 0x10000 ≤ n

/-- A space, a tab, or a break. -/
def isOpen (c : Char) : Bool :=
  isGap c || isBreak c

/-- Some character of one class stands directly before one of another. -/
def hasPair (p q : Char → Bool) : List Char → Bool
  | a :: b :: cs => (p a && q b) || hasPair p q (b :: cs)
  | _ => false

/-- A colon has a gap, a break or the end behind it. -/
def hasKeyMark : List Char → Bool
  | [] => false
  | c :: cs => (c == ':' && cs.head?.all isOpen) || hasKeyMark cs

/-- The characters start as a mark of some kind would. -/
def startsAsMark (cs : List Char) : Bool :=
  match cs with
  | [] => false
  | c :: rest =>
    "#,[]\x7b\x7d&*!|>'\"%@\x60".toList.contains c ||
      ((c == '?' || c == '-') && rest.head?.all isOpen) ||
      ['-', '-', '-'].isPrefixOf cs || ['.', '.', '.'].isPrefixOf cs

/-- Something in a text could be taken for a mark. -/
def holdsMark (cs : List Char) : Bool :=
  startsAsMark cs || hasKeyMark cs || hasPair isOpen (· == '#') cs

/-- A text starts or ends with a space or a break. -/
def isPadded (cs : List Char) : Bool :=
  let edge (c : Char) : Bool := c == ' ' || isBreak c
  cs.head?.any edge || cs.getLast?.any edge

/-- A space stands before a break, or a character that cannot stand for itself is there. -/
def isOdd (cs : List Char) : Bool :=
  hasPair (· == ' ') isBreak cs || cs.any (!isPrintable ·)

/-- The words that some reader takes for something else than a text. -/
def otherWords : List String :=
  ["true", "false", "null", "~", "y", "yes", "n", "no", "on", "off", "nil", "nan"]

/-- A text that could be taken for something else: no characters, one of the words in any case, or
    a start as of a number. -/
def isAmbiguous (s : String) : Bool :=
  match s.toList with
  | [] => true
  | c :: _ =>
    c.isDigit || c == '-' || c == '.' || c == '+' || otherWords.contains (s.map Char.toLower)

/-- The style of a text. -/
def styleOf (s : String) : Style :=
  let cs := s.toList
  let singly : Style :=
    if hasPair isBreak (· == ' ') cs || isOdd cs then .doubleQuoted else .singleQuoted
  if cs.contains '\n' then
    if cs.getLast? == some ' ' || isOdd cs then .doubleQuoted else .literal
  else if isAmbiguous s then singly
  else if isPadded cs || isOdd cs || cs.any isBreak || holdsMark cs then singly
  else .plain

/-! ## 2. The styles -/

/-- The indentation of the lines of a text. -/
def textIndent : List Char := [' ', ' ']

/-- The characters between single quotes: a quote is doubled, and what follows a break is
    indented. -/
def singleBody : Bool → List Char → List Char
  | broken, [] => if broken then textIndent else []
  | broken, c :: cs =>
    if isBreak c then c :: singleBody true cs
    else
      (if broken then textIndent else []) ++ (if c == '\'' then ['\'', '\''] else [c]) ++
        singleBody false cs

/-- Hexadecimal digits in capitals, as many as given. -/
def capitalHex (width n : Nat) : List Char :=
  let ds := (Nat.toDigits 16 n).map Char.toUpper
  List.replicate (width - ds.length) '0' ++ ds

/-- The letter of an escape, for the characters that have one. -/
def escapeLetter? (c : Char) : Option Char :=
  match c with
  | '\x00' => some '0'
  | '\x07' => some 'a'
  | '\x08' => some 'b'
  | '\t' => some 't'
  | '\n' => some 'n'
  | '\x0b' => some 'v'
  | '\x0c' => some 'f'
  | '\r' => some 'r'
  | '\x1b' => some 'e'
  | '"' => some '"'
  | '\\' => some '\\'
  | '\x85' => some 'N'
  | '\xa0' => some '_'
  | '\u2028' => some 'L'
  | '\u2029' => some 'P'
  | _ => none

/-- One character between double quotes. -/
def doubleChar (c : Char) : List Char :=
  if isPrintable c && !isBreak c && c != '"' && c != '\\' then [c]
  else
    match escapeLetter? c with
    | some l => ['\\', l]
    | none =>
      if c.toNat ≤ 0xFF then '\\' :: 'x' :: capitalHex 2 c.toNat
      else if c.toNat ≤ 0xFFFF then '\\' :: 'u' :: capitalHex 4 c.toNat
      else '\\' :: 'U' :: capitalHex 8 c.toNat

/-- What the header of a literal text says: that its indentation is two, if that could not be
    seen, and how its last breaks are chomped. -/
def literalHints (cs : List Char) : List Char :=
  (if cs.head?.any fun c => c == ' ' || isBreak c then ['2'] else []) ++
    match cs.reverse with
    | [] => ['-']
    | last :: before =>
      if !isBreak last then ['-'] else if before.head?.all isBreak then ['+'] else []

/-- The lines of a literal text, each that is not empty indented. -/
def literalBody : Bool → List Char → List Char
  | _, [] => []
  | broken, c :: cs =>
    if isBreak c then c :: literalBody true cs
    else (if broken then textIndent else []) ++ c :: literalBody false cs

/-- A literal text behind its mark, up to and with the end of its last line. -/
def literal (cs : List Char) : List Char :=
  literalHints cs ++ '\n' :: literalBody true cs ++
    (if cs.getLast?.any isBreak then [] else ['\n'])

/-- A text as the value of a member, with the end of its line. -/
def writeText (s : String) : List Char :=
  let cs := s.toList
  match styleOf s with
  | .plain => cs ++ ['\n']
  | .singleQuoted => '\'' :: singleBody false cs ++ ['\'', '\n']
  | .doubleQuoted => '"' :: cs.flatMap doubleChar ++ ['"', '\n']
  | .literal => '|' :: literal cs
  | .folded => cs ++ ['\n']

/-! ## 3. Documents -/

/-- A value of a member that is to be written. -/
inductive Entry where
  | text (s : String)
  | number (n : Nat)
  | boolean (b : Bool)
  | nothing
  | inner (members : List (String × Entry))
deriving Repr, Inhabited

mutual

/-- A value behind its key, with the end of its line. -/
def Entry.write (margin : List Char) : Entry → List Char
  | .text s => ' ' :: writeText s
  | .number n => ' ' :: (Decimal.text n).toList ++ ['\n']
  | .boolean b => ' ' :: (if b then "true" else "false").toList ++ ['\n']
  | .nothing => " null\n".toList
  | .inner ms => '\n' :: writeMembers (margin ++ [' ', ' ']) ms

/-- The members of a mapping, each on lines of its own. -/
def writeMembers (margin : List Char) : List (String × Entry) → List Char
  | [] => []
  | (key, e) :: ms => margin ++ key.toList ++ ':' :: e.write margin ++ writeMembers margin ms

end

/-- The text of a mapping. -/
def writeMapping (ms : List (String × Entry)) : String :=
  String.ofList (writeMembers [] ms)

end RevisionWatch.Yaml
