import RevisionWatch.Config.Fields
import RevisionWatch.Text.Bytes
/-!
# Configuration files

A file is read if it is asked for, and then it has to be seen; else the user's own is read if it is
seen, and without one the defaults hold. A file that is read is the whole answer: if it cannot be
read, is no configuration, or has a defect, that is an error, and the defaults do not step in. For
one of the user's own that is there but is not seen they do.
-/

namespace RevisionWatch.Config

/-- What lies at a path; of a file that cannot be read, the reason. At a place that is hidden
    something lies, but nothing can be learned of it, not even that: its directory may not be
    searched, its path is too long, or its links lead back to themselves. -/
inductive Place where
  | missing
  | hidden
  | file (content : Bytes)
  | unreadable (reason : String)
  | directory
  | socket
deriving DecidableEq, Repr, Inhabited

/-- Something lies there. -/
def Place.isThere : Place → Bool
  | .missing => false
  | _ => true

/-- Something lies there, and it is seen. -/
def Place.isSeen : Place → Bool
  | .missing | .hidden => false
  | _ => true

/-- What lies at each path. -/
abbrev Places := String → Place

/-- Why the text of a file is no configuration: it is no YAML, or it says something else. -/
inductive TextFault where
  | malformed
  | unlike (fault : Fault)
deriving DecidableEq, Repr, Inhabited

/-- The sentence for a fault of a text. -/
def TextFault.message : TextFault → String
  | .malformed => "malformed YAML"
  | .unlike fault => fault.message .yaml

/-- Why a file gives no configuration. -/
inductive LoadError where
  | notFound (path : String)
  | unreadable (path reason : String)
  | unlike (path : String) (fault : TextFault)
  | unusable (defect : Defect)
deriving DecidableEq, Repr, Inhabited

namespace LoadError

/-- The sentence for an error. -/
def message : LoadError → String
  | .notFound path => "config not found at " ++ path
  | .unreadable path reason => "I/O error at " ++ path ++ ": " ++ reason
  | .unlike path fault => "failed to parse config at " ++ path ++ ": " ++ fault.message
  | .unusable defect => defect.message

/-- The causes behind an error. -/
def causes : LoadError → List String
  | .unreadable _ reason => [reason]
  | .unlike _ fault => [fault.message]
  | _ => []

end LoadError

/-- The configuration that the text of a file gives, with its defects. Blanks alone give the
    defaults. -/
def ofText (s : String) : Except TextFault Config :=
  if Text.isBlankText s then .ok {}
  else
    match Yaml.Document.of? s with
    | none => .error .malformed
    | some d => (ofYaml d).mapError .unlike

/-- The text of a file. -/
def textAt (places : Places) (path : String) : Except LoadError String :=
  match places path with
  | .missing | .hidden => .error (.notFound path)
  | .unreadable reason => .error (.unreadable path reason)
  | .directory => .error (.unreadable path "Is a directory (os error 21)")
  | .socket => .error (.unreadable path "No such device or address (os error 6)")
  | .file bytes =>
    match Bytes.toText? bytes with
    | none => .error (.unreadable path "stream did not contain valid UTF-8")
    | some s => .ok s

/-- The configuration of a file that has to be seen, free of defects. -/
def loadAt (places : Places) (path : String) : Except LoadError Config := do
  let s ← textAt places path
  let c ← (ofText s).mapError (.unlike path)
  c.check.mapError .unusable

/-- The file that is read: the one asked for, or the user's own if something is seen there. -/
def fileRead (places : Places) (asked user : Option String) : Option String :=
  match asked with
  | some path => some path
  | none => user.filter fun path => (places path).isSeen

/-- The configuration of the file that is read, or the defaults. -/
def load (places : Places) (asked user : Option String) : Except LoadError Config :=
  match fileRead places asked user with
  | none => .ok {}
  | some path => loadAt places path

end RevisionWatch.Config
