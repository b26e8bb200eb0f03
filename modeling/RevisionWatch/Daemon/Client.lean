import RevisionWatch.Daemon.Exchange
import RevisionWatch.Daemon.Listing
/-!
# Asking the daemon what is installed

Both questions, for one package and for all, are one request for the whole list: a package that is
missing from a good list is absent, and everything else that is not a good list is an error. The
list leaves out packages that have no record; asking for such a package by name is an error.
-/

namespace RevisionWatch.Daemon

/-- The path of the list of installed packages. -/
def listPath : String := "/v2/snaps"

/-- The error of a refusal: its message, or the body itself if it has none that can be read. -/
def refusal (status : Nat) (body : Bytes) : Error :=
  .rejected status <|
    match refusalOfJson body with
    | .ok message => message
    | .error _ => Text.trim (Bytes.toTextLossy body)

/-- The entries that a response lists. -/
def entries (r : Http.Response) : Except Error (List Entry) :=
  if !r.succeeded then .error (refusal r.status r.body)
  else
    match Envelope.ofJson r.body with
    | .error f => .error (.unreadable f)
    | .ok envelope =>
      if envelope.isError then .error (refusal (envelope.statusCode.getD r.status) r.body)
      else (listingOfJson r.body).mapError .unreadable

/-- The first package of a name among the entries; none if no entry has it. -/
def find? (name : String) (es : List Entry) : Except Error (Option Package) :=
  match es.find? (·.name == name) with
  | none => .ok none
  | some e => some <$> e.package

/-- The error is that of a revision. -/
def Error.isMalformedRevision : Error → Bool
  | .malformedRevision _ => true
  | _ => false

/-- One entry more for the list, which is kept with the last package in front. An entry of many
    services and one without a revision are left out, and any other error is one of the list. -/
def keep (ps : List Package) (e : Entry) : Except Error (List Package) :=
  match e.package with
  | .ok p => .ok (p :: ps)
  | .error (.manyServices _ _) => .ok ps
  | .error err => if err.isMalformedRevision then .ok ps else .error err

/-- The answer about one package, from the response. -/
def query (name : String) (r : Except Error Http.Response) : Except Error (Option Package) := do
  find? name (← entries (← r))

/-- Whether a package is installed, from the response. -/
def installed (name : String) (r : Except Error Http.Response) : Except Error Bool :=
  Option.isSome <$> query name r

/-- All packages, from the response: by rising name, and those of one name stay in order. -/
def list (r : Except Error Http.Response) : Except Error (List Package) := do
  let es ← entries (← r)
  let ps ← es.foldlM keep []
  .ok (ps.reverse.mergeSort fun a b => a.name ≤ b.name)

end RevisionWatch.Daemon
