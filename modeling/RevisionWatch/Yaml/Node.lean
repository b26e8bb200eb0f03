import RevisionWatch.Yaml.Token
/-!
# Nodes

The tokens of a text make one document: a node that is a scalar, a sequence, a mapping, or a
reference to a node that was named before. Each anchor takes a number, the count of different
names so far, and a reference keeps the number that its name has where it stands; the node it
means is the last one in the document that took the number (`Document.target?`). A name that is
given again takes a number that the next new name takes once more, and then both mean that node.

Of a named collection only the kind is kept under its number.
-/

namespace RevisionWatch.Yaml

/-- A node of a document. -/
inductive Node where
  | scalar (style : Style) (tag : Option String) (text : String)
  | sequence (items : List Node)
  | mapping (pairs : List (Node × Node))
  | reference (number : Nat)
deriving Repr, Inhabited

/-- A document: its node, none if the text holds nothing, and what took each number, the last in
    front. -/
structure Document where
  root : Option Node
  numbered : List (Nat × Node)
deriving Repr, Inhabited

/-- The node that a reference means. -/
def Document.target? (d : Document) (number : Nat) : Option Node :=
  d.numbered.lookup number

/-- What is left to be read of a document, and what has been declared and named in it. -/
structure Remainder where
  tokens : List Token
  handles : List (List Char × List Char) := []
  names : List (List Char × Nat) := []
  numbered : List (Nat × Node) := []

namespace Remainder

/-- The remainder behind the first token. -/
def next (r : Remainder) : Remainder :=
  { r with tokens := r.tokens.drop 1 }

/-- Gives a node the name of its anchor, if it has one. -/
def name (r : Remainder) (anchor : Option (List Char)) (n : Node) : Remainder :=
  match anchor with
  | none => r
  | some a =>
    let number := r.names.length
    { r with
      names := (a, number) :: r.names.filter (·.1 != a)
      numbered := (number, n) :: r.numbered }

/-- The text of a tag; a lone exclamation mark on a scalar is as good as none. -/
def tagText (r : Remainder) (t : Tag) : Option String :=
  t.text? r.handles

/-- The anchor and the tag in front of a node, in either order. -/
def properties (r : Remainder) :
    Option ((Option (List Char) × Option String) × Remainder) :=
  match r.tokens with
  | .anchor a :: .tag t :: _ => do
    let s ← r.tagText t
    some ((some a, some s), r.next.next)
  | .anchor a :: _ => some ((some a, none), r.next)
  | .tag t :: .anchor a :: _ => do
    let s ← r.tagText t
    some ((some a, some s), r.next.next)
  | .tag t :: _ => do
    let s ← r.tagText t
    some ((none, some s), r.next)
  | _ => some ((none, none), r)

/-- A scalar of no characters. -/
def emptyScalar : Node := .scalar .plain none ""

/-- Whether the next token is one of those behind which a value in a block is empty. -/
def endsBlockItem (r : Remainder) : Bool :=
  match r.tokens with
  | .key :: _ | .value :: _ | .blockEnd :: _ => true
  | _ => false

/-- Whether the next token ends an item of a sequence in a block. -/
def endsBlockEntry (indentless : Bool) (r : Remainder) : Bool :=
  match r.tokens with
  | .blockEntry :: _ | .blockEnd :: _ => true
  | .key :: _ | .value :: _ => indentless
  | _ => false

/-- Whether the next token ends an item of a flow collection. -/
def endsFlowItem (close : Token) (r : Remainder) : Bool :=
  match r.tokens with
  | .flowEntry :: _ => true
  | t :: _ => t == close
  | [] => false

/-- Whether the next token is a given one. -/
def sees (r : Remainder) (t : Token) : Bool :=
  r.tokens.head? == some t

/-- What is left where an item of a flow collection may start: behind the comma, unless it is the
    first. -/
def flowItem? (r : Remainder) (first : Bool) : Option Remainder :=
  if first then some r else if r.sees .flowEntry then some r.next else none

mutual

/-- A node. Only in a block may it be a block collection, and only as a value or key of a mapping a
    sequence that is not indented. -/
def node : Nat → Bool → Bool → Remainder → Option (Node × Remainder)
  | 0, _, _, _ => none
  | fuel + 1, inBlock, indentless, r =>
    match r.tokens with
    | .alias a :: _ => do
      let number ← r.names.lookup a
      some (.reference number, r.next)
    | _ => do
      let ((anchor, tag), r) ← r.properties
      let scalarTag := tag.filter (· != "!")
      match r.tokens with
      | .blockEntry :: _ =>
        if indentless then do
          let (items, r) ← blockItems fuel true [] (r.name anchor (.sequence []))
          some (.sequence items, r)
        else if anchor.isSome || tag.isSome then
          some (.scalar .plain tag "", r.name anchor (.scalar .plain tag ""))
        else none
      | .scalar style text :: _ =>
        some (.scalar style scalarTag text,
          r.next.name anchor (.scalar style scalarTag text))
      | .flowSequenceStart :: _ => do
        let (items, r) ← flowItems fuel true [] (r.next.name anchor (.sequence []))
        some (.sequence items, r)
      | .flowMappingStart :: _ => do
        let (pairs, r) ← flowPairs fuel true [] (r.next.name anchor (.mapping []))
        some (.mapping pairs, r)
      | t :: _ =>
        if inBlock && t == .blockSequenceStart then do
          let (items, r) ← blockItems fuel false [] (r.next.name anchor (.sequence []))
          some (.sequence items, r)
        else if inBlock && t == .blockMappingStart then do
          let (pairs, r) ← blockPairs fuel [] (r.next.name anchor (.mapping []))
          some (.mapping pairs, r)
        else if anchor.isSome || tag.isSome then
          some (.scalar .plain tag "", r.name anchor (.scalar .plain tag ""))
        else none
      | [] =>
        if anchor.isSome || tag.isSome then
          some (.scalar .plain tag "", r.name anchor (.scalar .plain tag ""))
        else none

/-- The items of a sequence in a block, gathered in `acc` from the last to the first. One that is
    not indented ends where no hyphen follows; any other is closed. -/
def blockItems : Nat → Bool → List Node → Remainder → Option (List Node × Remainder)
  | 0, _, _, _ => none
  | fuel + 1, indentless, acc, r =>
    if r.sees .blockEntry then
      let r := r.next
      if r.endsBlockEntry indentless then blockItems fuel indentless (emptyScalar :: acc) r
      else do
        let (n, r) ← node fuel true false r
        blockItems fuel indentless (n :: acc) r
    else if indentless then some (acc.reverse, r)
    else if r.sees .blockEnd then some (acc.reverse, r.next)
    else none

/-- The pairs of a mapping in a block, gathered in `acc` from the last to the first. A key without
    a mark and a value without a mark are empty. -/
def blockPairs : Nat → List (Node × Node) → Remainder →
    Option (List (Node × Node) × Remainder)
  | 0, _, _ => none
  | fuel + 1, acc, r =>
    if r.sees .blockEnd then some (acc.reverse, r.next)
    else if r.sees .key then do
      let (k, r) ←
        if r.next.endsBlockItem then some (emptyScalar, r.next) else node fuel true true r.next
      let (v, r) ←
        if !r.sees .value then some (emptyScalar, r)
        else if r.next.endsBlockItem then some (emptyScalar, r.next)
        else node fuel true true r.next
      blockPairs fuel ((k, v) :: acc) r
    else none

/-- The items of a flow sequence behind its bracket, gathered in `acc` from the last to the first.
    An item with the mark of a key is a mapping of one pair. -/
def flowItems : Nat → Bool → List Node → Remainder → Option (List Node × Remainder)
  | 0, _, _, _ => none
  | fuel + 1, first, acc, r =>
    if r.sees .flowSequenceEnd then some (acc.reverse, r.next)
    else do
      let r ← r.flowItem? first
      if r.sees .flowSequenceEnd then some (acc.reverse, r.next)
      else if r.sees .key then do
        let r := r.next
        let (k, r) ←
          if r.sees .value || r.endsFlowItem .flowSequenceEnd then some (emptyScalar, r.next)
          else node fuel false false r
        let (v, r) ←
          if !r.sees .value then some (emptyScalar, r)
          else if r.next.endsFlowItem .flowSequenceEnd then some (emptyScalar, r.next)
          else node fuel false false r.next
        flowItems fuel false (.mapping [(k, v)] :: acc) r
      else do
        let (n, r) ← node fuel false false r
        flowItems fuel false (n :: acc) r

/-- The pairs of a flow mapping behind its brace, gathered in `acc` from the last to the first. An
    item without the mark of a key is a key without a value. -/
def flowPairs : Nat → Bool → List (Node × Node) → Remainder →
    Option (List (Node × Node) × Remainder)
  | 0, _, _, _ => none
  | fuel + 1, first, acc, r =>
    if r.sees .flowMappingEnd then some (acc.reverse, r.next)
    else do
      let r ← r.flowItem? first
      if r.sees .flowMappingEnd then some (acc.reverse, r.next)
      else if r.sees .key then do
        let r := r.next
        let (k, r) ←
          if r.sees .value || r.endsFlowItem .flowMappingEnd then some (emptyScalar, r)
          else node fuel false false r
        let (v, r) ←
          if !r.sees .value then some (emptyScalar, r)
          else if r.next.endsFlowItem .flowMappingEnd then some (emptyScalar, r.next)
          else node fuel false false r.next
        flowPairs fuel false ((k, v) :: acc) r
      else do
        let (k, r) ← node fuel false false r
        flowPairs fuel false ((k, emptyScalar) :: acc) r

end

/-- The directives of a document: one version at most, which has to be 1.1 or 1.2, and one text at
    most for each handle. -/
def directives : Nat → Bool → Remainder → Option Remainder
  | 0, _, _ => none
  | fuel + 1, versioned, r =>
    match r.tokens with
    | .directive (.version major minor) :: _ =>
      if versioned || major != 1 || !(minor == 1 || minor == 2) then none
      else directives fuel true r.next
    | .directive (.tag handle text) :: _ =>
      if (r.handles.lookup handle).isSome then none
      else directives fuel versioned { r.next with handles := r.handles ++ [(handle, text)] }
    | _ => some r

/-- Whether the tokens are at the end of a document that said nothing behind its mark. -/
def atDocumentEnd (r : Remainder) : Bool :=
  match r.tokens with
  | [] => true
  | .directive _ :: _ | .documentStart :: _ | .documentEnd :: _ => true
  | _ => false

/-- The node of a document, with its mark or without one. -/
def root (r : Remainder) : Option (Node × Remainder) :=
  let fuel := 4 * r.tokens.length + 4
  match r.tokens with
  | .directive _ :: _ | .documentStart :: _ => do
    let r ← directives fuel false r
    if !r.sees .documentStart then none
    else if r.next.atDocumentEnd then some (emptyScalar, r.next)
    else node fuel true false r.next
  | _ => node fuel true false r

end Remainder

/-- The document of a text; none if the text is no YAML or holds more than one. -/
def Document.of? (s : String) : Option Document := do
  let tokens ← tokens? s
  if tokens.isEmpty then some ⟨none, []⟩
  else
    let (n, r) ← Remainder.root { tokens }
    if (r.tokens.dropWhile (· == .documentEnd)).isEmpty then some ⟨some n, r.numbered⟩ else none

end RevisionWatch.Yaml
