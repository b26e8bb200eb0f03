import RevisionWatch.Daemon.Error
import RevisionWatch.Http.Reply
import RevisionWatch.Http.Request
/-!
# One request over the daemon's socket

Every request has a connection of its own. What lies at the socket's path decides whether there is
a connection; what the daemon sends and whether it then closes decides what is read from it. A
response is read until the connection is closed, the limit is passed, or nothing comes for as long
as the timeout says.
-/

namespace RevisionWatch.Daemon

/-- What lies at a socket's path: nothing, something that takes no connection, a path longer than
    a socket address, or a daemon. -/
inductive Endpoint where
  | missing
  | refusing
  | unaddressable
  | listening
deriving DecidableEq, Repr, Inhabited

/-- The longest path that a socket address holds, in bytes. -/
def addressLimit : Nat := 107

/-- How requests are made to one socket. -/
structure Socket where
  path : String
  host : String
  timeoutMillis : Nat
  limit : Nat
deriving DecidableEq, Repr, Inhabited

namespace Socket

/-- The largest response that is read unless another limit is asked for: 16 MiB. -/
def usualLimit : Nat := 16 * 1024 * 1024

/-- The host that a request names; it is never looked up. -/
def usualHost : String := "snapd"

/-- How long a connection may be silent, unless another timeout is asked for. -/
def usualTimeoutMillis : Nat := 10000

/-- Whether a connection comes about. A timeout of zero is refused once there is one. -/
def dial (s : Socket) : Endpoint → Except Error Unit
  | .missing => .error (.unavailable s.path "socket path does not exist")
  | .refusing => .error (.unavailable s.path "Connection refused (os error 111)")
  | .unaddressable => .error (.system s.path "path must be shorter than SUN_LEN")
  | .listening =>
    if s.timeoutMillis = 0 then .error (.system s.path "cannot set a 0 duration timeout")
    else .ok ()

/-- The text of a request for a path. -/
def request (s : Socket) (path : String) : String :=
  Http.request s.host path

/-- What is read from a connection. One byte more than the limit is asked for, so as to tell a
    response that is too long; the limit has to leave room for that byte in its word. -/
def receive (s : Socket) (reply : Http.Reply) : Except Error Bytes :=
  if Decimal.word64 ≤ s.limit + 1 then .error (.http .overflow)
  else if !(reply.sent.drop s.limit).isEmpty then .error (.http (.exceeds s.limit))
  else
    match reply with
    | .hangs _ => .error (.system s.path "Resource temporarily unavailable (os error 11)")
    | .closes [] => .error (.http .closedEarly)
    | .closes bs => .ok bs

/-- The response to a request, given what the daemon does on its connection. -/
def response (s : Socket) (reply : Http.Reply) : Except Error Http.Response := do
  let bs ← s.receive reply
  (Http.Response.decode bs).mapError .http

/-- One request: the connection, then the response. -/
def get (s : Socket) (endpoint : Endpoint) (reply : Http.Reply) : Except Error Http.Response := do
  s.dial endpoint
  s.response reply

end Socket

/-- A request as the daemon and the one who asks see it: the text that arrived, if there was a
    connection for it, and the response. -/
structure Exchange where
  request : Option String
  response : Except Error Http.Response
deriving Repr, Inhabited

namespace Socket

/-- The exchange over a path, given what the daemon does on the next connection. -/
def exchange (s : Socket) (endpoint : Endpoint) (reply : Http.Reply) (path : String) : Exchange where
  request := match s.dial endpoint with
    | .ok _ => some (s.request path)
    | .error _ => none
  response := s.get endpoint reply

/-- The exchanges over paths, one after another. The daemon has taken `n` connections before, and
    every request that comes to a connection is one more; `reply` is what the daemon does on each. -/
def exchanges (s : Socket) (endpoint : Endpoint) (reply : Nat → Http.Reply) :
    Nat → List String → List Exchange
  | _, [] => []
  | n, path :: paths =>
    let made := s.exchange endpoint (reply n) path
    made :: s.exchanges endpoint reply (if made.request.isSome then n + 1 else n) paths

end Socket

end RevisionWatch.Daemon
