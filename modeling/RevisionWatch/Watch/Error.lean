import RevisionWatch.Daemon.Error
import RevisionWatch.Revision
/-!
# How a watch can end without success

The package was not there, or stopped being; its revision moved in another way than one step up
with the service running; the daemon's answer is not known; the time or the number of polls ran
out; or the watch was cancelled. Durations are counted in milliseconds.
-/

namespace RevisionWatch.Watch

/-- Why a watch did not succeed. -/
inductive Error where
  | daemon (cause : Daemon.Error)
  | notInstalled (package : String)
  | regressed (before after : Revision)
  | jumped (before after : Revision)
  | notRunning (before after : Revision)
  | timedOut (elapsedMillis polls : Nat)
  | cancelled (polls : Nat)
  | crashed (report : String)
deriving DecidableEq, Repr, Inhabited

/-- Three digits of thousandths, without zeros at the end. -/
def thousandths (n : Nat) : String :=
  let ds := Nat.toDigits 10 n
  let padded := List.replicate (3 - ds.length) '0' ++ ds
  String.ofList ((padded.reverse.dropWhile (· == '0')).reverse)

/-- A duration in the largest unit that it fills. -/
def durationText (millis : Nat) : String :=
  if millis = 0 then "0ns"
  else if millis < 1000 then Decimal.text millis ++ "ms"
  else if millis % 1000 = 0 then Decimal.text (millis / 1000) ++ "s"
  else Decimal.text (millis / 1000) ++ "." ++ thousandths (millis % 1000) ++ "s"

/-- The sentence for an error, a duration written by `duration`. -/
def Error.messageWith (duration : Nat → String) : Error → String
  | .daemon cause => "daemon query failed: " ++ cause.message
  | .notInstalled package => "package '" ++ package ++ "' is not installed"
  | .regressed before after =>
    "revision went backwards from " ++ before.text ++ " to " ++ after.text
  | .jumped before after =>
    "revision jumped from " ++ before.text ++ " to " ++ after.text ++
      "; expected exactly one step"
  | .notRunning before after =>
    "revision moved from " ++ before.text ++ " to " ++ after.text ++
      " but the service is not running"
  | .timedOut elapsed polls =>
    "no update observed after " ++ Decimal.text polls ++ " polls in " ++ duration elapsed
  | .cancelled polls => "watch cancelled after " ++ Decimal.text polls ++ " polls"
  | .crashed report => "blocking task failed: " ++ report

/-- The sentence for an error. -/
def Error.message (e : Error) : String :=
  e.messageWith durationText

/-- The causes behind an error, the nearest first. -/
def Error.causes : Error → List String
  | .daemon cause => cause.message :: cause.causes
  | _ => []

/-- What is known of a task that crashed: which it was, and with which words. -/
def crashReport (task words : String) : String :=
  "task " ++ task ++ " panicked with message " ++ Text.quoted words

end RevisionWatch.Watch
