import RevisionWatch.Json.Printer
import RevisionWatch.Text.Width
import RevisionWatch.Watch.Session
/-!
# What is shown

A package is shown as a row of a table, as a few lines, or as JSON; a watch as a line with some
more below it, or as JSON. Colours are used only if asked for. What depends on the clock is written
by a `Timing`, so that all else is a function of what happened.
-/

namespace RevisionWatch.Command

/-! ## 1. Colours -/

/-- A text in a colour or weight, if colours are used. -/
def paint (colors : Bool) (code text : String) : String :=
  if colors then "\x1b[" ++ code ++ "m" ++ text ++ "\x1b[0m" else text

/-! ## 2. Packages -/

/-- How the service of a package is called. -/
def serviceLabel (p : Package) : String :=
  match p.service with
  | .notService => "-"
  | .service true => "active"
  | .service false => "inactive"

/-- A package as JSON, with both of its marks. -/
def packageJson (p : Package) : Json.Value :=
  .object [
    ("name", .text p.name), ("version", Json.Value.textOrNull p.version),
    ("revision", .natural p.revision.number), ("is_daemon", .boolean p.isDaemon),
    ("is_running", .boolean p.isRunning)]

/-- A package over a few lines. -/
def packageLines (colors : Bool) (p : Package) : String :=
  let label := serviceLabel p
  let service :=
    match p.service with
    | .notService => label
    | .service true => paint colors "32" label
    | .service false => paint colors "31" label
  paint colors "1" p.name ++ "\n  version:  " ++ p.version.getD "-" ++ "\n  revision: " ++
    p.revision.text ++ "\n  service:  " ++ service ++ "\n"

/-! ## 3. Tables -/

/-- The lines of a cell. -/
def cellLines (cell : String) : List String :=
  (go [] cell.toList).map String.ofList
where
  go (acc : List Char) : List Char → List (List Char)
    | [] => [acc.reverse]
    | c :: cs => if c == '\n' then acc.reverse :: go [] cs else go (c :: acc) cs

/-- A text filled up with spaces to a width. -/
def fillTo (columns : Nat) (s : String) : String :=
  s ++ String.ofList (List.replicate (columns - Text.width s) ' ')

/-- The widths of the columns of a table, each as wide as its widest line. -/
def columnWidths (rows : List (List String)) : List Nat :=
  rows.foldl (fun widths row =>
    let own := row.map fun cell => ((cellLines cell).map Text.width).foldl max 0
    if widths.isEmpty then own else List.zipWith max widths own) []

/-- A rule of a table with its corners. -/
def rule (left middle right : String) (widths : List Nat) : String :=
  left ++ String.intercalate middle
    (widths.map fun w => String.join (List.replicate (w + 2) "─")) ++ right ++ "\n"

/-- A row of a table, as many lines high as its highest cell. -/
def tableRow (widths : List Nat) (row : List String) : String :=
  let cells := row.map cellLines
  let height := (cells.map List.length).foldl max 0
  String.join <| (List.range height).map fun i =>
    "│" ++ String.join (List.zipWith
      (fun w lines => " " ++ fillTo w (lines[i]?.getD "") ++ " │") widths cells) ++ "\n"

/-- A table with a head. -/
def table (head : List String) (rows : List (List String)) : String :=
  let widths := columnWidths (head :: rows)
  rule "╭" "┬" "╮" widths ++ tableRow widths head ++ rule "├" "┼" "┤" widths ++
    String.join (rows.map (tableRow widths)) ++ rule "╰" "┴" "╯" widths

/-- The table of packages. -/
def packageTable (ps : List Package) : String :=
  table ["package", "version", "revision", "service"]
    (ps.map fun p => [p.name, p.version.getD "-", p.revision.text, serviceLabel p])

/-! ## 4. Watches -/

/-- How moments and durations are written, and how a task is called that crashed. -/
structure Timing where
  moment : String
  stamp : String
  logMoment : String
  took : Nat → String
  waited : Nat → String
  millis : Nat → Json.Value
  task : String
  unreachable : String

/-- A duration in minutes and seconds, or in seconds and tenths if it is shorter than a minute; a
    half tenth goes to the even one. -/
def elapsedText (millis : Nat) : String :=
  let seconds := millis / 1000
  if 60 ≤ seconds then
    let rest := Decimal.text (seconds % 60)
    Decimal.text (seconds / 60) ++ "m " ++ (if rest.length < 2 then "0" else "") ++ rest ++ "s"
  else
    let whole := millis / 100
    let odd := millis % 100
    let tenths := if 50 < odd || (odd == 50 && whole % 2 == 1) then whole + 1 else whole
    Decimal.text (tenths / 10) ++ "." ++ Decimal.text (tenths % 10) ++ "s"

/-- The name of a phase in JSON. -/
def phaseKey : Watch.Phase → String
  | .idle => "idle"
  | .triggerSent => "trigger_sent"
  | .polling => "polling"
  | .succeeded => "succeeded"
  | .timedOut => "timed_out"
  | .failed => "failed"
  | .cancelled => "cancelled"

/-- The agent's answer as JSON. -/
def triggerJson : Agent.Outcome → Json.Value
  | .accepted status => .object [("result", .text "accepted"), ("status", .natural status)]
  | .rejected status => .object [("result", .text "rejected"), ("status", .natural status)]
  | .unreachable reason => .object [("result", .text "unreachable"), ("reason", .text reason)]

/-- The error that an outcome is, if it is a failure. -/
def failureOf (r : Watch.Report) : Option Watch.Error :=
  match r.outcome with
  | .failed e => some e
  | _ => none

/-- A watch as JSON. -/
def summaryJson (t : Timing) (iteration : Nat) (r : Watch.Report) : Json.Value :=
  let orNull (f : Package → Json.Value) : Option Package → Json.Value
    | none => .null
    | some p => f p
  .object [
    ("iteration", .natural iteration), ("started_at", .text t.stamp),
    ("package", .text r.package), ("outcome", .text (phaseKey r.outcome.phase)),
    ("error", Json.Value.textOrNull ((failureOf r).map (·.messageWith t.waited))),
    ("trigger", match r.trigger with
      | none => .null
      | some o => triggerJson o),
    ("baseline", orNull packageJson r.baseline), ("last_known", orNull packageJson r.lastKnown),
    ("polls", .natural r.polls), ("elapsed_ms", t.millis r.elapsedMillis)]

/-- A watch in a line, with the agent's answer and what is known last below it. -/
def summaryLines (colors : Bool) (t : Timing) (iteration : Nat) (r : Watch.Report) : String :=
  let head := " [" ++ t.moment ++ "] iteration " ++ Decimal.text iteration ++ " · " ++ r.package
  let took := t.took r.elapsedMillis
  let polls := " (" ++ Decimal.text r.polls ++ " polls)"
  let revision : Option Package → String
    | none => "?"
    | some p => p.revision.text
  let first :=
    match r.outcome with
    | .succeeded _ _ =>
      paint colors "1;32" "✓" ++ head ++ ": revision " ++ revision r.baseline ++ " → " ++
        revision r.lastKnown ++ " in " ++ took ++ polls
    | .timedOut =>
      paint colors "1;31" "✗" ++ head ++ ": timed out after " ++ took ++ polls
    | .cancelled => paint colors "1;33" "■" ++ head ++ ": cancelled after " ++ took
    | .failed e =>
      paint colors "1;31" "✗" ++ head ++ ": failed after " ++ took ++ ": " ++
        e.messageWith t.waited
  let trigger :=
    match r.trigger with
    | none => ""
    | some (.accepted status) => "  trigger: accepted (" ++ Decimal.text status ++ ")\n"
    | some (.rejected status) =>
      "  trigger: " ++ paint colors "33" ("rejected (" ++ Decimal.text status ++ ")") ++ "\n"
    | some (.unreachable reason) =>
      "  trigger: " ++ paint colors "33" ("unreachable: " ++ reason) ++ "\n"
  let boolText (b : Bool) := if b then "true" else "false"
  let last :=
    if r.succeeded then ""
    else
      match r.lastKnown with
      | none => "  last known: none\n"
      | some p =>
        "  last known: revision " ++ p.revision.text ++ " · daemon " ++ boolText p.isDaemon ++
          " · running " ++ boolText p.isRunning ++ "\n"
  first ++ "\n" ++ trigger ++ last

/-! ## 5. Errors -/

/-- An error as it is told at the end: what failed, and the causes, the nearest first. -/
structure Complaint where
  message : String
  causes : List String
deriving DecidableEq, Repr, Inhabited

/-- A cause behind its number or margin, its further lines indented alike. -/
def indentedCause (number : Option Nat) (s : String) : String :=
  let (first, later) :=
    match number with
    | none => ("    ", "    ")
    | some n =>
      let digits := Decimal.text n
      (String.ofList (List.replicate (5 - digits.length) ' ') ++ digits ++ ": ", "       ")
  first ++ String.intercalate ("\n" ++ later) (cellLines s)

/-- The text of a complaint. A single cause has no number. -/
def Complaint.text (c : Complaint) : String :=
  let causes :=
    match c.causes with
    | [] => ""
    | [cause] => "\n\nCaused by:\n" ++ indentedCause none cause
    | causes =>
      "\n\nCaused by:" ++ String.join
        (causes.zipIdx.map fun (cause, i) => "\n" ++ indentedCause (some i) cause)
  "Error: " ++ c.message ++ causes ++ "\n"

end RevisionWatch.Command
