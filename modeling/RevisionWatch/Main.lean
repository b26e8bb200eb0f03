import RevisionWatch.Command.Script
import Std.Time.Format
/-!
# The program

The outer layer: it gathers what the program finds around it, runs the command, and writes what
came of it. The other side of every connection is played by a script (`Command.Script`), whose
path the environment names; without one nobody listens. Time passes only in the sleeps of a watch,
so a command does not wait.
-/

namespace RevisionWatch

/-- The name under which the environment gives the path of the script. -/
def scriptVariable : String := "REVISIONWATCH_SCRIPT"

/-- The name under which the environment gives the level of the log. -/
def logVariable : String := "REVISIONWATCH_LOG"

/-- What lies at a path. Reading is refused alike for a file and for a directory on the way to it,
    but only the way to a file that is seen can be followed to its end. -/
def placeAt (path : String) : IO Config.Place := do
  match ← (IO.FS.readBinFile path).toBaseIO with
  | .ok content => return .file content.toList
  | .error (.noFileOrDirectory ..) => return .missing
  | .error (.noSuchThing ..) => return .socket
  | .error (.invalidArgument ..) => return .hidden
  | .error refusal =>
    let isFollowed := (← (IO.FS.realPath path).toBaseIO).toOption.isSome
    match refusal with
    | .permissionDenied .. =>
      return if isFollowed then .unreadable "Permission denied (os error 13)" else .hidden
    | _ => return if isFollowed then .directory else .missing

/-- The level of the log: the one of that name, none for the word off, and else the usual one. -/
def logLevelOf : Option String → Option Command.Severity
  | some "off" => none
  | some name => some ((Command.Severity.of? name).getD .info)
  | none => some .info

/-- How moments are written at the time of the start, and durations by the clock of the watch. -/
def timingNow : IO Command.Timing := do
  let moment ← Std.Time.Timestamp.now
  let now := Std.Time.DateTime.ofTimestamp moment Std.Time.TimeZone.ZoneRules.UTC
  let stamp := now.format "uuuu-MM-dd'T'HH:mm:ss.SSSSSS'Z'"
  return {
    moment := now.format "uuuu-MM-dd HH:mm:ss"
    stamp
    logMoment := stamp
    took := Command.elapsedText
    waited := Watch.durationText
    millis := Json.Value.natural
    task := "1"
    unreachable := "no answer" }

/-- The script that the environment names, or one in which nobody listens. -/
def readScript : IO Command.Script := do
  match ← IO.getEnv scriptVariable with
  | none => return {}
  | some path =>
    match Command.Script.ofJson (← IO.FS.readBinFile path).toList with
    | .ok script => return script
    | .error fault => throw (IO.userError (path ++ ": " ++ fault.message))

/-- Everything that a command with these arguments may look at. -/
def worldNow (arguments : List String) : IO Command.World := do
  let script ← readScript
  let home ← IO.getEnv "HOME"
  let configHome ← IO.getEnv "XDG_CONFIG_HOME"
  let asked := match Command.read arguments with
    | .ok i => i.config
    | .error _ => none
  let user := Config.userPath? home configHome
  let known ← (asked.toList ++ user.toList).mapM fun path => return (path, ← placeAt path)
  let elsewhere : Config.Place := if script.daemon.isSome then .socket else .missing
  return {
    places := fun path => (known.lookup path).getD elsewhere
    home
    configHome
    daemon := script.daemon.getD []
    agent := script.agent
    logLevel := logLevelOf (← IO.getEnv logVariable)
    colors := (← (← IO.getStdout).isTty) && (← IO.getEnv "NO_COLOR").isNone
    interrupts := script.interrupts
    timing := ← timingNow }

end RevisionWatch

open RevisionWatch in
/-- Runs a command: its output goes to standard output, the log and the complaint to standard
    error, and the exit code is the command's. -/
def main (arguments : List String) : IO UInt32 := do
  let world ← worldNow arguments
  let (asked, effect) := Command.run world arguments
  let json := asked.any (·.logJson)
  let moment := world.timing.logMoment
  for notice in effect.notices do
    IO.eprint (if json then notice.jsonLine moment else notice.line moment)
  IO.print effect.output
  if let some complaint := effect.complaint then
    IO.eprint (if complaint.endsWith "\n" then complaint else complaint ++ "\n")
  return effect.exit.toUInt32
