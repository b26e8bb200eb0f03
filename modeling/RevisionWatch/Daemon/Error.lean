import RevisionWatch.Http.Response
import RevisionWatch.Json.Reader
import RevisionWatch.Mismatch
/-!
# What can go wrong between the daemon and its reader

The causes, from the socket up to the single package: nobody answers at the socket, the system
refuses to read from it, the answer is no HTTP response, the body is not the JSON that was asked
for, the daemon refuses the request, and a package is reported in a shape that has no record.
-/

namespace RevisionWatch.Daemon

/-- Why the daemon's answer is not known. -/
inductive Error where
  | unavailable (socket reason : String)
  | system (path reason : String)
  | http (fault : Http.Fault)
  | unreadable (fault : Json.Fault)
  | rejected (status : Nat) (message : String)
  | manyServices (package : String) (count : Nat)
  | malformedRevision (raw : String)
deriving DecidableEq, Repr, Inhabited

/-- The sentence for a revision text that is none. -/
def malformedRevisionText (raw : String) : String :=
  "malformed revision " ++ Text.quoted raw ++
    ": expected one marker character followed by digits"

/-- The sentence for an error. -/
def Error.message : Error → String
  | .unavailable socket reason => "snapd is not reachable at " ++ socket ++ ": " ++ reason
  | .system path reason => "I/O error at " ++ path ++ ": " ++ reason
  | .http fault => "malformed HTTP response from snapd: " ++ fault.message
  | .unreadable fault => "failed to decode snapd response: " ++ fault.message
  | .rejected status message =>
    "snapd rejected the request (" ++ Decimal.text status ++ "): " ++ message
  | .manyServices package count =>
    "package '" ++ package ++ "' declares " ++ Decimal.text count ++
      " daemon apps; exactly one is supported"
  | .malformedRevision raw => malformedRevisionText raw

/-- The causes behind an error, the nearest first. -/
def Error.causes : Error → List String
  | .system _ reason => [reason]
  | .unreadable fault => [fault.message]
  | _ => []

end RevisionWatch.Daemon
