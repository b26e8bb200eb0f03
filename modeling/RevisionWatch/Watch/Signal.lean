/-!
# The signal to stop

A watch listens to a channel on which anyone may send a value to stop it. The channel holds so
many values; a listener who falls behind further is told so once and then reads on. Values that
were sent before the channel was closed can still be read. A value and the news of having fallen
behind both ask the watch to stop (`Receipt.asks`); an empty or a closed channel never does.

When what is sent is a plan: at the start, during a query, while the agent is told to update, at a
time of the clock, or in a sleep.
-/

namespace RevisionWatch.Watch

/-- What happens to a channel. -/
inductive Sent where
  | value
  | closing
deriving DecidableEq, Repr

/-- A channel as one listener sees it: how many values it holds, how many were sent that have not
    been read, and whether more can come. -/
structure Inbox where
  capacity : Nat
  unread : Nat := 0
  closed : Bool := false
deriving DecidableEq, Repr, Inhabited

/-- What a listener reads. -/
inductive Receipt where
  | value
  | behind
  | nothing
  | closed
deriving DecidableEq, Repr

/-- What was read asks the watch to stop. -/
def Receipt.asks : Receipt → Bool
  | .value | .behind => true
  | .nothing | .closed => false

namespace Inbox

/-- The inbox once something more has happened. -/
def push (i : Inbox) : Sent → Inbox
  | .value => if i.closed then i else { i with unread := i.unread + 1 }
  | .closing => { i with closed := true }

/-- Reads what there is, without waiting. -/
def receive (i : Inbox) : Receipt × Inbox :=
  if i.capacity < i.unread then (.behind, { i with unread := i.capacity })
  else if 0 < i.unread then (.value, { i with unread := i.unread - 1 })
  else (if i.closed then .closed else .nothing, i)

end Inbox

/-- A plan of what is sent when. Queries and sleeps are counted from one, times in milliseconds from
    the start; the times are in rising order. -/
structure Signals where
  atStart : List Sent := []
  inQuery : Nat → List Sent := fun _ => []
  inFiring : List Sent := []
  inSleep : Nat → List Sent := fun _ => []
  atTimes : List (Nat × Sent) := []

/-- Nothing is ever sent. -/
def Signals.silent : Signals := {}

instance : Inhabited Signals := ⟨.silent⟩

end RevisionWatch.Watch
