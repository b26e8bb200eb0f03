import RevisionWatch.Json.Fields
import RevisionWatch.Json.Printer
import RevisionWatch.Package
/-!
# Packages in JSON

A package is an object of its name, its revision as a number, its version if there is one, and its
service state. The state is an object whose member `kind` names the state; a service also says
whether it is active. The kind may stand anywhere among the members, so the others are kept as
they are until it is known; as a list, the state starts with its kind.
-/

namespace RevisionWatch

/-! ## 1. Writing -/

/-- The state as an object, the kind first. -/
def ServiceState.toJson : ServiceState → Json.Value
  | .notService => .object [("kind", .text "not_service")]
  | .service active => .object [("kind", .text "service"), ("active", .boolean active)]

/-- The package as an object; no version, no member. -/
def Package.toJson (p : Package) : Json.Value :=
  .object ([("name", .text p.name), ("revision", .natural p.revision.number)] ++
    (match p.version with
      | some v => [("version", .text v)]
      | none => []) ++
    [("service", p.service.toJson)])

/-! ## 2. Reading the service state -/

namespace ServiceState

open Json (Fault Reader Content)

/-- Which of the two states a kind names. -/
inductive Kind where
  | notService
  | service
deriving DecidableEq, Repr

/-- The state of a kind's name. -/
def kind? (name : String) : Except Mismatch Kind :=
  if name = "not_service" then .ok .notService
  else if name = "service" then .ok .service
  else .error (.unknownVariant name ["not_service", "service"])

/-- Reads the name of a kind. -/
def readKind : Reader Kind := fun bs => do
  let (name, rest) ← Json.textAs "variant identifier" bs
  match kind? name with
  | .ok k => .ok (k, rest)
  | .error m => .error (.unlike m)

/-- The truth value that a content is. -/
def active? : Content → Except Mismatch Bool
  | .scalar (.boolean b) => .ok b
  | c => .error (.wrongType c.found "a boolean")

/-- The state of a kind and the items behind it. -/
def ofItems : Kind → List Content → Except Mismatch ServiceState
  | .notService, [] => .ok .notService
  | .notService, cs => .error (.wrongLength cs.length "0 elements in sequence")
  | .service, [] =>
    .error (.wrongLength 0 "struct variant ServiceState::Service with 1 element")
  | .service, [c] => .service <$> active? c
  | .service, c :: cs => do
    let _ ← active? c
    .error (.wrongLength (cs.length + 1) "1 element in sequence")

/-- The member `active` of the members beside the kind. -/
def activeOf : Option Bool → List (String × Content) → Except Mismatch (Option Bool)
  | found, [] => .ok found
  | found, (key, c) :: ms =>
    if key = "active" then
      match found with
      | some _ => .error (.repeatedField "active")
      | none => do
        let b ← active? c
        activeOf (some b) ms
    else activeOf found ms

/-- The state of a kind and the members beside it. -/
def ofMembers : Kind → List (String × Content) → Except Mismatch ServiceState
  | .notService, _ => .ok .notService
  | .service, ms => do
    match ← activeOf none ms with
    | some b => .ok (.service b)
    | none => .error (.missingField "active")

/-- The kind and the other members of an object behind its brace, which is left open. -/
def membersFrom (room : Nat) : Bytes → Bool → Option Kind → List (String × Content) → Bytes →
    Except Fault ((Option Kind × List (String × Content)) × Bytes)
  | [], _, _, _, _ => .error .ended
  | _ :: fuel, first, kind, acc, bs => do
    match ← Json.nextKey first bs with
    | none => .ok ((kind, acc.reverse), bs)
    | some bs =>
      let (key, bs) ← Json.textBody bs
      if key = "kind" then
        if kind.isSome then .error (.unlike (.repeatedField "kind"))
        else
          let bs ← Json.afterByte Json.colon bs
          let (k, bs) ← readKind bs
          membersFrom room fuel false (some k) acc bs
      else
        let bs ← Json.afterByte Json.colon bs
        let (c, bs) ← Json.content room bs
        membersFrom room fuel false kind ((key, c) :: acc) bs

/-- The state as an object, behind its brace. -/
def object (room : Nat) : Reader ServiceState := fun bs => do
  let ((kind, ms), bs) ← membersFrom room bs true none [] bs
  match kind with
  | none => .error (.unlike (.missingField "kind"))
  | some k =>
    let rest ← Json.afterByte Json.closeObject bs
    match ofMembers k ms with
    | .ok s => .ok (s, rest)
    | .error m => .error (.unlike m)

/-- The state as a list, behind its bracket. -/
def list (room : Nat) : Reader ServiceState := fun bs => do
  match ← Json.nextItem true bs with
  | none => .error (.unlike (.missingField "kind"))
  | some start =>
    let (k, bs) ← readKind start
    let (cs, rest) ← Json.itemsFrom (Json.content room) bs false [] bs
    match ofItems k cs with
    | .ok s => .ok (s, rest)
    | .error m => .error (.unlike m)

/-- The state, in either form. -/
def read : Json.Nested ServiceState := fun room bs =>
  match Json.dropBlanks bs with
  | [] => .error .ended
  | b :: rest =>
    if b == Json.openObject then
      match room with
      | 0 => .error .malformed
      | room + 1 => object room rest
    else if b == Json.openList then
      match room with
      | 0 => .error .malformed
      | room + 1 => list room rest
    else .error (Json.unwanted "internally tagged enum ServiceState" b rest)

end ServiceState

/-! ## 3. Reading the package -/

namespace Package

/-- What has been read of a package. A version that is given may still be none. -/
structure Draft where
  name : Option String := none
  revision : Option Revision := none
  version : Option (Option String) := none
  service : Option ServiceState := none

/-- A revision as a number of a 64-bit word. -/
def readRevision : Json.Reader Revision := fun bs => do
  let (n, rest) ← Json.natural Decimal.word64 "u64" bs
  match Revision.ofNat? n with
  | some r => .ok (r, rest)
  | none => .error (.unlike (.wrongValue (.integer n) "u64"))

/-- The fields of a package; name and revision have to be given. -/
def layout : Json.Layout Draft Package where
  title := "struct PackageRecord"
  fields := [
    .of "name" Draft.name (fun d x => { d with name := some x }) fun _ => Json.text,
    .of "revision" Draft.revision (fun d x => { d with revision := some x }) fun _ => readRevision,
    .of "version" Draft.version (fun d x => { d with version := some x }) fun _ =>
      Json.optional Json.text,
    .of "service" Draft.service (fun d x => { d with service := some x }) ServiceState.read]
  blank := {}
  finish d :=
    match d.name, d.revision with
    | none, _ => .error "name"
    | some _, none => .error "revision"
    | some name, some revision =>
      .ok ⟨name, revision, d.version.getD none, d.service.getD .notService⟩

/-- Reads a package from a whole JSON text. -/
def ofJson (bs : Bytes) : Except Json.Fault Package :=
  Json.document layout.read bs

end Package

end RevisionWatch
