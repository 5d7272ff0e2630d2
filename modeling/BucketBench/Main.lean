import BucketBench.Command.Run
import Std.Time

set_option autoImplicit false

/-!
# The program

Collects what a command may look at, runs it, and prints what comes out. No database can be reached from here,
so every call to one is turned away.
-/

namespace BucketBench

def withVariable (env : Environment) (name : String) : IO Environment := do
  match ← IO.getEnv name with
  | some value => return ⟨env.bindings ++ [(name, Bytes.ofText value)]⟩
  | none => return env

def withFile (fs : Files) (path : String) : IO Files := do
  try
    let bytes ← IO.FS.readBinFile path
    let made := (fs.makeParents path).toOption.getD fs
    return (made.write path (.bytes bytes.toList)).toOption.getD made
  catch _ => return fs

def currentTime : IO Timestamp := do
  let now ← Std.Time.Timestamp.now
  let nanos := now.toNanosecondsSinceUnixEpoch.val
  return ⟨nanos / 1000000000, (nanos % 1000000000).toNat⟩

def worldFor (i : Invocation) (env : Environment) : IO World := do
  let fs ← match i.settingsFile with
    | some path => withFile (Files.empty ["work"]) path
    | none => pure (Files.empty ["work"])
  let settings := (Settings.load fs env i.settingsFile).toOption.getD {}
  let fs ← withFile fs settings.paths.setupsFile
  let fs ← match i.command with
    | .showConfig r => (r.file.toList).foldlM withFile fs
    | _ => pure fs
  let ids := [settings.secrets.masterKeyId, settings.database.userSecret, settings.database.passwordSecret]
  let env ← (ids.map (settings.secrets.envLead ++ ·)).foldlM withVariable env
  return ⟨fs, env, ← currentTime, (← IO.getRandomBytes 12).toList⟩

def noDatabase : Database := ⟨⟨Collection.ofDocuments [], []⟩, fun _ => false, []⟩

end BucketBench

open BucketBench

/-- Runs the command that the arguments name: its output, or the reasons why it failed. -/
def main (args : List String) : IO UInt32 := do
  let names := [Invocation.settingsVariable, Settings.endpointVariable, Settings.accessKeyVariable,
    Settings.secretKeyVariable]
  let env ← names.foldlM withVariable ⟨[]⟩
  match Invocation.ofArguments env.text? args with
  | .error fault =>
    IO.eprintln "usage: s3qa [--config FILE] config|secret|timings|version ..."
    return fault.exitCode.toUInt32
  | .ok i =>
    match (i.run (← worldFor i env)).run noDatabase with
    | (.ok text, _) =>
      IO.print text
      return 0
    | (.error failure, _) =>
      IO.eprintln failure.report
      return 1
