import RevisionWatch.Decimal.Digits
import RevisionWatch.Text.Blank
/-!
# What a watch is told

A configuration says where the daemon listens, which package is watched, where the agent is told
to update, and how long everything may take. Every field has a default. A configuration is valid
if it names a package, no duration and no bound is zero, and the agent is reached over plain HTTP;
the fields are checked in a fixed order, and the first that fails is the fault.
-/

namespace RevisionWatch

/-- The settings of a watch. -/
structure Config where
  socketPath : String := "/run/snapd.socket"
  package : String := "phantom-agent"
  triggerUrl : String := "http://localhost:30000/update_version_force"
  pollIntervalSecs : Nat := 5
  timeoutSecs : Nat := 600
  maxPolls : Option Nat := none
  ioTimeoutSecs : Nat := 10
deriving DecidableEq, Repr, Inhabited

namespace Config

/-- What makes a configuration unusable. -/
inductive Defect where
  | noPackage
  | zeroInterval
  | zeroTimeout
  | zeroIoTimeout
  | zeroPolls
  | foreignUrl (url : String)
deriving DecidableEq, Repr

/-- The text of a defect. -/
def Defect.text : Defect → String
  | .noPackage => "package must not be empty"
  | .zeroInterval => "poll_interval_secs must be greater than zero"
  | .zeroTimeout => "timeout_secs must be greater than zero"
  | .zeroIoTimeout => "io_timeout_secs must be greater than zero"
  | .zeroPolls => "max_polls must be greater than zero when set"
  | .foreignUrl url => "trigger_url must be a local http:// URL, got '" ++ url ++ "'"

/-- The sentence for a defect. -/
def Defect.message (d : Defect) : String :=
  "invalid config: " ++ d.text

/-- What the agent's address starts with. -/
def scheme : List Char :=
  "http://".toList

/-- The first defect of a configuration. -/
def defect? (c : Config) : Option Defect :=
  if Text.isBlankText c.package then some .noPackage
  else if c.pollIntervalSecs = 0 then some .zeroInterval
  else if c.timeoutSecs = 0 then some .zeroTimeout
  else if c.ioTimeoutSecs = 0 then some .zeroIoTimeout
  else if c.maxPolls = some 0 then some .zeroPolls
  else if !scheme.isPrefixOf c.triggerUrl.toList then some (.foreignUrl c.triggerUrl)
  else none

/-- The configuration itself, if it has no defect. -/
def check (c : Config) : Except Defect Config :=
  match c.defect? with
  | some d => .error d
  | none => .ok c

/-- A path below a directory. -/
def below (directory name : String) : String :=
  if directory.isEmpty || directory.endsWith "/" then directory ++ name
  else directory ++ "/" ++ name

/-- Where a configuration file lies below a directory of such files. -/
def pathBelow (directory : String) : String :=
  below (below directory "snapwatch") "config.yaml"

/-- Where the user's own configuration file lies: below the directory for such files if that is
    given by an absolute path, else below the usual one of the home directory. -/
def userPath (home : String) (configHome : Option String) : String :=
  match configHome.filter (·.startsWith "/") with
  | some directory => pathBelow directory
  | none => pathBelow (below home ".config")

/-- The same, where the home directory may not be known; then only the directory for such files
    counts. -/
def userPath? (home configHome : Option String) : Option String :=
  match home with
  | some home => some (userPath home configHome)
  | none => (configHome.filter (·.startsWith "/")).map pathBelow

end Config

end RevisionWatch
