import RevisionWatch.Daemon.Error
import RevisionWatch.Json.Fields
import RevisionWatch.Json.Printer
import RevisionWatch.Package
/-!
# What the daemon says about its packages

An answer is an envelope with a type and a status; a good one has the installed packages as its
result, a refusal has a message in it. Of a package only four members are read, and its revision
is kept as any value until the package is asked for, so that one odd package does not spoil the
answer for the others (`Entry.package`).
-/

namespace RevisionWatch.Daemon

/-! ## 1. Envelopes -/

/-- The members every answer has. -/
structure Envelope where
  kind : Option String
  statusCode : Option Nat
deriving DecidableEq, Repr, Inhabited

/-- The answer is a refusal. -/
def Envelope.isError (e : Envelope) : Bool :=
  e.kind == some "error"

/-- What has been read of an envelope. -/
structure EnvelopeDraft where
  kind : Option (Option String) := none
  statusCode : Option (Option Nat) := none

/-- The members of an envelope, both optional. -/
def Envelope.layout : Json.Layout EnvelopeDraft Envelope where
  title := "struct ResponseEnvelope"
  fields := [
    .of "type" EnvelopeDraft.kind (fun d x => { d with kind := some x }) fun _ =>
      Json.optional Json.text,
    .of "status-code" EnvelopeDraft.statusCode (fun d x => { d with statusCode := some x })
      fun _ => Json.optional (Json.natural Decimal.word16 "u16")]
  blank := {}
  finish d := .ok ⟨d.kind.getD none, d.statusCode.getD none⟩

/-- Reads the envelope of an answer. -/
def Envelope.ofJson (bs : Bytes) : Except Json.Fault Envelope :=
  Json.document layout.read bs

/-! ## 2. Refusals -/

/-- The message of a refusal's result; one that is not given is empty. -/
def refusalLayout : Json.Layout (Option String) String where
  title := "struct ErrorResult"
  fields := [.of "message" id (fun _ x => some x) fun _ => Json.text]
  blank := none
  finish d := .ok (d.getD "")

/-- A refusal, whose result has to be given. -/
def refusalReply : Json.Layout (Option String) String where
  title := "struct ErrorResponse"
  fields := [.of "result" id (fun _ x => some x) refusalLayout.read]
  blank := none
  finish d :=
    match d with
    | none => .error "result"
    | some m => .ok m

/-- Reads the message of a refusal. -/
def refusalOfJson (bs : Bytes) : Except Json.Fault String :=
  Json.document refusalReply.read bs

/-! ## 3. Entries -/

/-- An application of a package. -/
structure App where
  daemon : Option String
  active : Option Bool
deriving DecidableEq, Repr, Inhabited

/-- The application is a service; of which type does not matter. -/
def App.isDaemon (a : App) : Bool :=
  a.daemon.isSome

/-- What has been read of an application. -/
structure AppDraft where
  daemon : Option (Option String) := none
  active : Option (Option Bool) := none

/-- The members of an application, both optional. -/
def App.layout : Json.Layout AppDraft App where
  title := "struct AppEntry"
  fields := [
    .of "daemon" AppDraft.daemon (fun d x => { d with daemon := some x }) fun _ =>
      Json.optional Json.text,
    .of "active" AppDraft.active (fun d x => { d with active := some x }) fun _ =>
      Json.optional Json.boolean]
  blank := {}
  finish d := .ok ⟨d.daemon.getD none, d.active.getD none⟩

/-- A package as the daemon lists it. -/
structure Entry where
  name : String
  revision : Json.Value
  version : Option String
  apps : List App
deriving Repr, Inhabited

/-- What has been read of an entry. -/
structure EntryDraft where
  name : Option String := none
  revision : Option Json.Value := none
  version : Option (Option String) := none
  apps : Option (List App) := none

/-- The members of an entry. Only the name has to be given; a missing revision is null. -/
def Entry.layout : Json.Layout EntryDraft Entry where
  title := "struct SnapEntry"
  fields := [
    .of "name" EntryDraft.name (fun d x => { d with name := some x }) fun _ => Json.text,
    .of "revision" EntryDraft.revision (fun d x => { d with revision := some x }) Json.value,
    .of "version" EntryDraft.version (fun d x => { d with version := some x }) fun _ =>
      Json.optional Json.text,
    .of "apps" EntryDraft.apps (fun d x => { d with apps := some x })
      (Json.listOf App.layout.read)]
  blank := {}
  finish d :=
    match d.name with
    | none => .error "name"
    | some name =>
      .ok ⟨name, d.revision.getD .null, d.version.getD none, d.apps.getD []⟩

/-- Reads one entry from a whole JSON text. -/
def Entry.ofJson (bs : Bytes) : Except Json.Fault Entry :=
  Json.document layout.read bs

/-- A good answer, whose result is the list of entries. -/
def listing : Json.Layout (Option (List Entry)) (List Entry) where
  title := "struct SnapListResponse"
  fields := [.of "result" id (fun _ x => some x) (Json.listOf Entry.layout.read)]
  blank := none
  finish d :=
    match d with
    | none => .error "result"
    | some es => .ok es

/-- Reads the entries of a good answer. -/
def listingOfJson (bs : Bytes) : Except Json.Fault (List Entry) :=
  Json.document listing.read bs

/-! ## 4. From an entry to a package -/

namespace Entry

/-- The applications that are services. -/
def services (e : Entry) : List App :=
  e.apps.filter App.isDaemon

/-- The service state: one service at most has a state, and one that does not say it is active is
    not. -/
def service (e : Entry) : Except Error ServiceState :=
  match e.services with
  | [] => .ok .notService
  | [a] => .ok (.service (a.active.getD false))
  | as => .error (.manyServices e.name as.length)

/-- The revision: a text of a marker and digits. Any other value is refused by its own text. -/
def readRevision (e : Entry) : Except Error Revision :=
  match e.revision with
  | .text raw =>
    match Revision.parse? raw with
    | some r => .ok r
    | none => .error (.malformedRevision raw)
  | v => .error (.malformedRevision v.write)

/-- The package of an entry. A bad revision counts before a bad shape. -/
def package (e : Entry) : Except Error Package := do
  let revision ← e.readRevision
  let service ← e.service
  .ok ⟨e.name, revision, e.version, service⟩

end Entry

end RevisionWatch.Daemon
