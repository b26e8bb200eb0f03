import RevisionWatch.Decimal.Digits
/-!
# What came of telling the agent to update

The agent acts on its own time, so what it answers decides nothing: it is recorded and shown.
-/

namespace RevisionWatch.Agent

/-- The agent's answer: a status of success, another status, or no answer and the reason. -/
inductive Outcome where
  | accepted (status : Nat)
  | rejected (status : Nat)
  | unreachable (reason : String)
deriving DecidableEq, Repr, Inhabited

namespace Outcome

/-- The status of an answer. -/
def status? : Outcome → Option Nat
  | .accepted status => some status
  | .rejected status => some status
  | .unreachable _ => none

/-- The agent accepted. -/
def isAccepted : Outcome → Bool
  | .accepted _ => true
  | _ => false

end Outcome

end RevisionWatch.Agent
