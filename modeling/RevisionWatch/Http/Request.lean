/-!
# Requests

A request asks for one path and nothing else. It always asks that the connection be closed behind
the response, since that is how the end of a response without a length is known.
-/

namespace RevisionWatch.Http

/-- The name under which the program introduces itself. -/
def userAgent : String := "snapwatch/0.1.0"

/-- The text of a request for a path of a host. -/
def request (host path : String) : String :=
  "GET " ++ path ++ " HTTP/1.1\r\nHost: " ++ host ++ "\r\nUser-Agent: " ++ userAgent ++
    "\r\nAccept: application/json\r\nConnection: close\r\n\r\n"

end RevisionWatch.Http
