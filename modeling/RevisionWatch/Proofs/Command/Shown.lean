import RevisionWatch.Command.Display
import RevisionWatch.Proofs.Json.Lines
import RevisionWatch.Proofs.Watch.Accounting
/-!
# What is shown of a watch

A watch is shown as text or as an object of JSON, and both say which iteration it was, of which
package, and what came of it:

* `ShowsText` -- a text has the line for the watch (`headline`) in front, and below it what the
  agent answered and, unless the watch succeeded, what is known last;
* `ShowsTree` -- an object of JSON has these and the two packages under their names.

That the program writes such a text and such an object is `summaryLines_shows`, and
`printsLines_summaryJson` with `summaryTree_shows`.
-/

namespace RevisionWatch.Command

open Json (Tree PrintsLines writtenMembers rawOf numeralOf)
open Watch (Report Settings Surroundings Recorded)

variable {t : Timing} {iteration : Nat} {rep : Report}

/-! ## 1. As text -/

/-- The line for a watch: a mark, the moment, the iteration, the package, and what came of it. -/
def headline (colors : Bool) (t : Timing) (iteration : Nat) (rep : Report) : String :=
  let watch := " [" ++ t.moment ++ "] iteration " ++ Decimal.text iteration ++ " · " ++ rep.package
  let took := t.took rep.elapsedMillis
  match rep.outcome with
  | .succeeded before after => Watch.successLine colors t iteration rep before after
  | .timedOut =>
    paint colors "1;31" "✗" ++ watch ++ ": timed out after " ++ took ++ " (" ++
      Decimal.text rep.polls ++ " polls)"
  | .cancelled => paint colors "1;33" "■" ++ watch ++ ": cancelled after " ++ took
  | .failed e =>
    paint colors "1;31" "✗" ++ watch ++ ": failed after " ++ took ++ ": " ++ e.messageWith t.waited

/-- The line for the agent's answer. -/
def answerLine (colors : Bool) : Agent.Outcome → String
  | .accepted status => "trigger: accepted (" ++ Decimal.text status ++ ")"
  | .rejected status =>
    "trigger: " ++ paint colors "33" ("rejected (" ++ Decimal.text status ++ ")")
  | .unreachable reason => "trigger: " ++ paint colors "33" ("unreachable: " ++ reason)

/-- The line for what is known last. -/
def knownLine : Option Package → String
  | none => "last known: none"
  | some p => "last known: revision " ++ p.revision.text ++ " · daemon " ++
      (if p.isDaemon then "true" else "false") ++ " · running " ++
      (if p.isRunning then "true" else "false")

/-- The lines below that for the watch: the agent's answer, if it was told, and what is known last,
    if the watch did not succeed. -/
def linesBelow (colors : Bool) (rep : Report) : List String :=
  (rep.trigger.map (answerLine colors)).toList ++
    if rep.succeeded then [] else [knownLine rep.lastKnown]

/-- **A text shows a watch**: the line for it, and the others below it. -/
def ShowsText (colors : Bool) (t : Timing) (iteration : Nat) (rep : Report) (s : String) : Prop :=
  s = headline colors t iteration rep ++ "\n" ++
    String.join ((linesBelow colors rep).map fun line => "  " ++ line ++ "\n")

theorem join_line (line : String) :
    String.join ([line].map fun line => "  " ++ line ++ "\n") = "  " ++ line ++ "\n" := by
  simp

/-- **What the program writes of a watch shows it.** -/
theorem summaryLines_shows {s : Settings} {w : Surroundings} (h : Recorded s w rep)
    (colors : Bool) (t : Timing) (iteration : Nat) :
    ShowsText colors t iteration rep (summaryLines colors t iteration rep) := by
  unfold ShowsText linesBelow summaryLines
  rw [List.map_append, String.join_append, ← String.append_assoc]
  dsimp only
  refine congrArg₂ (· ++ ·) (congrArg₂ (· ++ ·) (congrArg (· ++ "\n") ?_) ?_) ?_
  · unfold headline
    cases ho : rep.outcome with
    | succeeded before after =>
      have hrevisions : rep.outcome.revisions? = some (before, after) := by
        rw [ho]
        rfl
      obtain ⟨hbaseline, hlast⟩ := h.decided before after hrevisions
      obtain ⟨b, hb, rfl⟩ := Option.map_eq_some_iff.1 hbaseline
      obtain ⟨p, hp, rfl⟩ := Option.map_eq_some_iff.1 hlast
      unfold Watch.successLine
      simp only [hb, hp, String.append_assoc]
    | _ => simp only [String.append_assoc]
  · cases rep.trigger with
    | none => rfl
    | some o =>
      rw [Option.map_some, Option.toList_some, join_line]
      unfold answerLine
      cases o with
      | accepted status =>
        have hend : ")\n" = ")" ++ "\n" := by decide
        dsimp only
        rw [hend, ← String.append_assoc]
        simp only [← String.append_assoc, String.reduceAppend]
      | rejected status => simp only [← String.append_assoc, String.reduceAppend]
      | unreachable reason => simp only [← String.append_assoc, String.reduceAppend]
  · cases rep.succeeded with
    | true => rfl
    | false =>
      rw [if_neg Bool.false_ne_true, if_neg Bool.false_ne_true, join_line]
      unfold knownLine
      cases rep.lastKnown with
      | none => simp only [String.reduceAppend]
      | some p => simp only [← String.append_assoc, String.reduceAppend]

/-! ## 2. As JSON -/

/-- The name of an outcome in JSON. -/
def outcomeName : Watch.Outcome → String
  | .succeeded _ _ => "succeeded"
  | .timedOut => "timed_out"
  | .cancelled => "cancelled"
  | .failed _ => "failed"

/-- A tree, or null for none. -/
def orNullTree : Option Tree → Tree
  | none => .null
  | some tree => tree

/-- The text of a tree. -/
def textTree (s : String) : Tree :=
  .text (rawOf s)

/-- A package with both of its marks. -/
def packageTree (p : Package) : Tree :=
  .object <| writtenMembers [
    ("name", textTree p.name), ("version", orNullTree (p.version.map textTree)),
    ("revision", .number (numeralOf p.revision.number)), ("is_daemon", .boolean p.isDaemon),
    ("is_running", .boolean p.isRunning)]

/-- The agent's answer. -/
def answerTree : Agent.Outcome → Tree
  | .accepted status => .object <| writtenMembers
    [("result", textTree "accepted"), ("status", .number (numeralOf status))]
  | .rejected status => .object <| writtenMembers
    [("result", textTree "rejected"), ("status", .number (numeralOf status))]
  | .unreachable reason => .object <| writtenMembers
    [("result", textTree "unreachable"), ("reason", textTree reason)]

/-- **An object shows a watch**: what it has under the names of its members. -/
structure ShowsTree (t : Timing) (iteration : Nat) (rep : Report) (tree : Tree) : Prop where
  iteration : tree.member? "iteration" = some (.number (numeralOf iteration))
  started : tree.member? "started_at" = some (textTree t.stamp)
  package : tree.member? "package" = some (textTree rep.package)
  outcome : tree.member? "outcome" = some (textTree (outcomeName rep.outcome))
  failed : ∀ e, rep.outcome = .failed e →
    tree.member? "error" = some (textTree (e.messageWith t.waited))
  unfailed : (∀ e, rep.outcome ≠ .failed e) → tree.member? "error" = some .null
  trigger : tree.member? "trigger" = some (orNullTree (rep.trigger.map answerTree))
  baseline : tree.member? "baseline" = some (orNullTree (rep.baseline.map packageTree))
  lastKnown : tree.member? "last_known" = some (orNullTree (rep.lastKnown.map packageTree))
  polls : tree.member? "polls" = some (.number (numeralOf rep.polls))
  elapsed : ∃ millis, PrintsLines (t.millis rep.elapsedMillis) millis ∧
    tree.member? "elapsed_ms" = some millis

/-- What is written for a duration spells a tree. -/
def Timing.IsSpelled (t : Timing) : Prop :=
  ∀ millis, ∃ tree, PrintsLines (t.millis millis) tree

/-- A duration that is written as a number is. -/
theorem Timing.isSpelled_of_natural (h : t.millis = Json.Value.natural) : t.IsSpelled :=
  fun millis => ⟨_, h ▸ Json.printsLines_natural millis⟩

theorem printsLines_textOrNull (s : Option String) :
    PrintsLines (Json.Value.textOrNull s) (orNullTree (s.map textTree)) := by
  cases s with
  | none => exact Json.printsLines_null
  | some s => exact Json.printsLines_text s

theorem printsLines_packageJson (p : Package) : PrintsLines (packageJson p) (packageTree p) :=
  Json.printsLines_object <|
    .cons ⟨rfl, Json.printsLines_text _⟩ <| .cons ⟨rfl, printsLines_textOrNull _⟩ <|
    .cons ⟨rfl, Json.printsLines_natural _⟩ <| .cons ⟨rfl, Json.printsLines_boolean _⟩ <|
    .cons ⟨rfl, Json.printsLines_boolean _⟩ .nil

theorem printsLines_triggerJson (o : Agent.Outcome) :
    PrintsLines (triggerJson o) (answerTree o) := by
  cases o with
  | accepted status | rejected status =>
    exact Json.printsLines_object <|
      .cons ⟨rfl, Json.printsLines_text _⟩ <| .cons ⟨rfl, Json.printsLines_natural _⟩ .nil
  | unreachable reason =>
    exact Json.printsLines_object <|
      .cons ⟨rfl, Json.printsLines_text _⟩ <| .cons ⟨rfl, Json.printsLines_text _⟩ .nil

/-- The members of a watch, given that of its duration. -/
def summaryTree (t : Timing) (iteration : Nat) (rep : Report) (millis : Tree) : Tree :=
  .object <| writtenMembers [
    ("iteration", .number (numeralOf iteration)), ("started_at", textTree t.stamp),
    ("package", textTree rep.package), ("outcome", textTree (outcomeName rep.outcome)),
    ("error", orNullTree (((failureOf rep).map (·.messageWith t.waited)).map textTree)),
    ("trigger", orNullTree (rep.trigger.map answerTree)),
    ("baseline", orNullTree (rep.baseline.map packageTree)),
    ("last_known", orNullTree (rep.lastKnown.map packageTree)),
    ("polls", .number (numeralOf rep.polls)), ("elapsed_ms", millis)]

theorem summaryTree_shows {millis : Tree} (h : PrintsLines (t.millis rep.elapsedMillis) millis)
    (iteration : Nat) : ShowsTree t iteration rep (summaryTree t iteration rep millis) where
  iteration := Json.member?_written "iteration" _
  started := Json.member?_written "started_at" _
  package := Json.member?_written "package" _
  outcome := Json.member?_written "outcome" _
  failed e he := by
    refine (Json.member?_written "error" _).trans (congrArg some ?_)
    unfold failureOf
    rw [he]
    rfl
  unfailed hne := by
    refine (Json.member?_written "error" _).trans (congrArg some ?_)
    unfold failureOf
    cases ho : rep.outcome with
    | failed e => exact absurd ho (hne e)
    | _ => rfl
  trigger := Json.member?_written "trigger" _
  baseline := Json.member?_written "baseline" _
  lastKnown := Json.member?_written "last_known" _
  polls := Json.member?_written "polls" _
  elapsed := ⟨millis, h, Json.member?_written "elapsed_ms" _⟩

/-- **What the program writes of a watch in JSON spells its members.** -/
theorem printsLines_summaryJson {millis : Tree}
    (h : PrintsLines (t.millis rep.elapsedMillis) millis) (iteration : Nat) :
    PrintsLines (summaryJson t iteration rep) (summaryTree t iteration rep millis) := by
  refine Json.printsLines_object ?_
  refine .cons ⟨rfl, Json.printsLines_natural _⟩ <| .cons ⟨rfl, Json.printsLines_text _⟩ <|
    .cons ⟨rfl, Json.printsLines_text _⟩ <| .cons ⟨rfl, ?_⟩ <|
    .cons ⟨rfl, printsLines_textOrNull _⟩ <| .cons ⟨rfl, ?_⟩ <| .cons ⟨rfl, ?_⟩ <|
    .cons ⟨rfl, ?_⟩ <| .cons ⟨rfl, Json.printsLines_natural _⟩ <| .cons ⟨rfl, h⟩ .nil
  · cases rep.outcome <;> exact Json.printsLines_text _
  · cases rep.trigger with
    | none => exact Json.printsLines_null
    | some o => exact printsLines_triggerJson o
  · cases rep.baseline with
    | none => exact Json.printsLines_null
    | some p => exact printsLines_packageJson p
  · cases rep.lastKnown with
    | none => exact Json.printsLines_null
    | some p => exact printsLines_packageJson p

end RevisionWatch.Command
