import RevisionWatch.Decimal.Digits
import RevisionWatch.Text.Bytes
import RevisionWatch.Yaml.Cursor
/-!
# Names, tags and directives

A node may be given a name by an anchor and a kind by a tag. A tag is spelled out between angle
brackets or starts with a handle, for which a directive at the head of the document may give a
text; the handles of one and two exclamation marks always have one.
-/

namespace RevisionWatch.Yaml

/-- A tag as it is written: the handle and what follows it. A tag that is spelled out has no
    handle. -/
structure Tag where
  handle : List Char
  suffix : List Char
deriving DecidableEq, Repr, Inhabited

/-- What a directive says. -/
inductive Directive where
  | version (major minor : Nat)
  | tag (handle text : List Char)
deriving DecidableEq, Repr, Inhabited

/-! ## 1. Anchors -/

/-- What may follow a name, besides a gap, a break and the end. -/
def endsName (ch : Char) : Bool :=
  ch == '?' || ch == ':' || ch == ',' || ch == ']' || ch == '}' || ch == '%' || ch == '@' ||
    ch == '\x60'

/-- The name of an anchor or of a reference to one, behind its mark. -/
def anchorName (c : Cursor) : Option (List Char × Cursor) :=
  let name := c.rest.takeWhile isWord
  let next := c.skip name.length
  if name.isEmpty || !(next.isOpenAt 0 || (next.ahead 0).any endsName) then none
  else some (name, next)

/-! ## 2. Tags -/

/-- The characters of a tag's suffix; the comma and the square brackets only where it is spelled
    out or stands in a directive. -/
def isTagChar (wide : Bool) (ch : Char) : Bool :=
  isWord ch || ";/?:@&=+$.%!~*'()".toList.contains ch || (wide && ",[]".toList.contains ch)

/-- One byte that is escaped by a percent sign and two hexadecimal digits. -/
def escapedByte (c : Cursor) : Option (UInt8 × Cursor) :=
  match c.rest with
  | '%' :: a :: b :: _ => do
    let n ← Decimal.value? 16 [a, b]
    some (n.toUInt8, c.skip 3)
  | _ => none

/-- So many escaped bytes, one after another. -/
def escapedBytes : Nat → Cursor → Option (Bytes × Cursor)
  | 0, c => some ([], c)
  | n + 1, c => do
    let (b, c) ← escapedByte c
    let (bs, c) ← escapedBytes n c
    some (b :: bs, c)

/-- One character whose bytes are escaped. -/
def escapedChar (c : Cursor) : Option (List Char × Cursor) := do
  let (b, _) ← escapedByte c
  let (n, _) ← Bytes.lead? b
  let (bs, c) ← escapedBytes n c
  let s ← Bytes.toText? bs
  some (s.toList, c)

/-- The suffix of a tag behind the characters in `acc`. -/
def tagSuffixFrom (wide : Bool) : Nat → List Char → Cursor → Option (List Char × Cursor)
  | 0, acc, c => some (acc, c)
  | fuel + 1, acc, c =>
    match c.ahead 0 with
    | none => some (acc, c)
    | some ch =>
      if !isTagChar wide ch then some (acc, c)
      else if ch == '%' then
        match escapedChar c with
        | none => none
        | some (cs, c) => tagSuffixFrom wide fuel (acc ++ cs) c
      else tagSuffixFrom wide fuel (acc ++ [ch]) (c.skip 1)

/-- The suffix of a tag behind the handle that it turned out to belong to. Together they hold a
    character. -/
def tagSuffix (wide : Bool) (head : List Char) (c : Cursor) : Option (List Char × Cursor) := do
  let (cs, next) ← tagSuffixFrom wide c.rest.length (head.drop 1) c
  if head.isEmpty && next.index == c.index then none else some (cs, next)

/-- A handle: an exclamation mark, a name, and another mark. Only in a directive the second mark
    has to be there, unless the handle is the single mark. -/
def tagHandle (directive : Bool) (c : Cursor) : Option (List Char × Cursor) :=
  if !c.sees 0 '!' then none
  else
    let name := (c.rest.drop 1).takeWhile isWord
    let next := c.skip (1 + name.length)
    if next.sees 0 '!' then some ('!' :: name ++ ['!'], next.skip 1)
    else if directive && !name.isEmpty then none
    else some ('!' :: name, next)

/-- A tag. What follows it is a gap, a break, the end, or in the flow style a comma. -/
def tag (flow : Bool) (c : Cursor) : Option (Tag × Cursor) := do
  let (t, c) ←
    if c.sees 1 '<' then do
      let (suffix, c) ← tagSuffix true [] (c.skip 2)
      if c.sees 0 '>' then some (Tag.mk [] suffix, c.skip 1) else none
    else do
      let (handle, c) ← tagHandle false c
      if 1 < handle.length && handle.getLast? == some '!' then do
        let (suffix, c) ← tagSuffix false [] c
        some (Tag.mk handle suffix, c)
      else do
        let (suffix, c) ← tagSuffix false handle c
        some (if suffix.isEmpty then Tag.mk [] ['!'] else Tag.mk ['!'] suffix, c)
  if (flow && c.sees 0 ',') || c.isOpenAt 0 then some (t, c) else none

/-! ## 3. Directives -/

/-- A number of at most nine digits. -/
def versionNumber (c : Cursor) : Option (Nat × Cursor) := do
  let digits := c.rest.takeWhile Char.isDigit
  if 9 < digits.length then none
  else
    let n ← Decimal.value? 10 digits
    some (n, c.skip digits.length)

/-- A directive behind its percent sign, to the end of its line. -/
def directive (c : Cursor) : Option (Directive × Cursor) := do
  let name := c.rest.takeWhile isWord
  let c := c.skip name.length
  if name.isEmpty || !c.isOpenAt 0 then none
  else if name == "YAML".toList then do
    let (major, c) ← versionNumber (c.skipWhile isGap)
    if c.sees 0 '.' then do
      let (minor, c) ← versionNumber (c.skip 1)
      let c ← c.endLine?
      some (.version major minor, c)
    else none
  else if name == "TAG".toList then do
    let (handle, c) ← tagHandle true (c.skipWhile isGap)
    if !c.atGap then none
    else do
      let (text, c) ← tagSuffix true [] (c.skipWhile isGap)
      if !c.isOpenAt 0 then none
      else do
        let c ← c.endLine?
        some (.tag handle text, c)
  else none

/-! ## 4. What a tag means -/

/-- The handles that need no directive. -/
def usualHandles : List (List Char × List Char) :=
  [(['!'], ['!']), (['!', '!'], "tag:yaml.org,2002:".toList)]

/-- The text of a tag under the handles of a document; none for a handle that has no text. -/
def Tag.text? (handles : List (List Char × List Char)) (t : Tag) : Option String :=
  if t.handle.isEmpty then some (String.ofList t.suffix)
  else
    ((handles ++ usualHandles).lookup t.handle).map fun front => String.ofList (front ++ t.suffix)

end RevisionWatch.Yaml
