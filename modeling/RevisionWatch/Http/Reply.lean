import RevisionWatch.Text.Bytes
/-!
# What a server does

A server that has read a request sends some bytes and then closes the connection, or keeps it open
and sends nothing more. What it does on each of its connections is a list of replies: the last one
repeats, and a server without replies closes at once.
-/

namespace RevisionWatch.Http

/-- What a server does on one connection after it has read the request. -/
inductive Reply where
  | closes (sent : Bytes)
  | hangs (sent : Bytes)
deriving DecidableEq, Repr, Inhabited

/-- The bytes that arrive. -/
def Reply.sent : Reply → Bytes
  | .closes bs => bs
  | .hangs bs => bs

/-- The reply on connection `n`, counted from zero. -/
def replyAt (replies : List Reply) (n : Nat) : Reply :=
  match replies[n]? with
  | some r => r
  | none => replies.getLast?.getD (.closes [])

end RevisionWatch.Http
