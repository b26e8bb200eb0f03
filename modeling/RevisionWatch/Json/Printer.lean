import RevisionWatch.Json.Value
/-!
# Writing JSON

A value is written without blanks, or one item a line with two spaces for each level. A text
escapes the quote, the backslash and the controls below the space; a number is written in the
notation of a document.
-/

namespace RevisionWatch.Json

/-- Two hexadecimal digits of a control. -/
def controlText (c : Char) : String :=
  "\\u00" ++ (if c.toNat < 16 then "0" else "") ++ Text.hex c.toNat

/-- One character of a text. -/
def writeChar (c : Char) : String :=
  if c == '"' then "\\\""
  else if c == '\\' then "\\\\"
  else if c == '\n' then "\\n"
  else if c == '\r' then "\\r"
  else if c == '\t' then "\\t"
  else if c == '\x08' then "\\b"
  else if c == '\x0c' then "\\f"
  else if c < ' ' then controlText c
  else c.toString

/-- A text between its quotes. -/
def writeText (s : String) : String :=
  s.foldl (fun out c => out ++ writeChar c) "\"" ++ "\""

namespace Value

/-- A value that is no container. -/
def writeScalar : Value → String
  | .null => "null"
  | .boolean b => if b then "true" else "false"
  | .integer i => toString i
  | .real x => x.write .document
  | .text s => writeText s
  | _ => ""

mutual

/-- A value without blanks. -/
def write : Value → String
  | .list vs => "[" ++ writeItems vs ++ "]"
  | .object ms => "\x7b" ++ writeMembers ms ++ "\x7d"
  | v => v.writeScalar

/-- The items of a list, a comma between two. -/
def writeItems : List Value → String
  | [] => ""
  | [v] => v.write
  | v :: vs => v.write ++ "," ++ writeItems vs

/-- The members of an object, a comma between two. -/
def writeMembers : List (String × Value) → String
  | [] => ""
  | [(k, v)] => writeText k ++ ":" ++ v.write
  | (k, v) :: ms => writeText k ++ ":" ++ v.write ++ "," ++ writeMembers ms

end

/-- A new line at a level. -/
def lineAt (level : Nat) : String :=
  "\n" ++ String.ofList (List.replicate (2 * level) ' ')

mutual

/-- A value at a level, one item a line; an empty container stays on its line. -/
def writeAt (level : Nat) : Value → String
  | .list [] => "[]"
  | .list vs => "[" ++ itemLines (level + 1) vs ++ lineAt level ++ "]"
  | .object [] => "\x7b\x7d"
  | .object ms => "\x7b" ++ memberLines (level + 1) ms ++ lineAt level ++ "\x7d"
  | v => v.writeScalar

/-- The items of a list, each on its line. -/
def itemLines (level : Nat) : List Value → String
  | [] => ""
  | [v] => lineAt level ++ v.writeAt level
  | v :: vs => lineAt level ++ v.writeAt level ++ "," ++ itemLines level vs

/-- The members of an object, each on its line. -/
def memberLines (level : Nat) : List (String × Value) → String
  | [] => ""
  | [(k, v)] => lineAt level ++ writeText k ++ ": " ++ v.writeAt level
  | (k, v) :: ms =>
    lineAt level ++ writeText k ++ ": " ++ v.writeAt level ++ "," ++ memberLines level ms

end

/-- A value over as many lines as it takes. -/
def writeLines (v : Value) : String :=
  v.writeAt 0

end Value

end RevisionWatch.Json
