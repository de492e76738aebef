import QueryBoard.CommandLine.Run
import QueryBoard.Db.Description

/-!
# The command line

The outermost layer: it takes from the environment and from the disk what a run looks at, lets the
run happen, and writes what it reports.  A file that is opened as a database holds the document of
one.  Statements change the database of the run only; no file is written.
-/

set_option autoImplicit false

namespace QueryBoard.CommandLine

def Command.documents : Command → List String
  | .compile file _ (.tables path) => [file, path]
  | .compile file _ _ | .query file _ => [file]
  | _ => []

def Command.databases : Command → List String
  | .compile _ _ (.database path) => [path]
  | _ => []

def referencesOf (path : String) : List String :=
  (Expansion.pieces path.toList).filterMap fun
    | .reference name => some (String.ofList name)
    | .literal _ => none

/-- The paths in settings, before expansion. -/
def pathsOf (settings : Settings) : List String :=
  settings.storePath :: settings.sources.map (·.2.path)

def fileOfDatabase (bytes : List UInt8) : File :=
  match (Text.Utf8.strict? bytes).bind Json.parse? with
  | some (.obj fields) => ((Db.Database.ofJson? (.obj fields)).map File.database).getD (.text bytes)
  | _ => .text bytes

/-- The lines of variables, of those that are set. -/
def readEnvironment (names : List String) : IO Environment := do
  let found ← names.mapM fun name => do return (← IO.getEnv name).map (Environment.line name)
  return found.filterMap id

/-- A disk on which it is known what is at a path. -/
def probe (content : List UInt8 → File) (disk : Disk) (path : String) : IO Disk := do
  try
    let bytes ← IO.FS.readBinFile path
    return { disk with files := (disk.locate path, content bytes.toList) :: disk.files }
  catch _ =>
    try
      let _ ← IO.FS.realPath path
      return { disk with directories := disk.locate path :: disk.directories }
    catch _ => return disk

/-- A disk on which it is known what is at a path and on the way to it. -/
def probeWay (content : List UInt8 → File) (disk : Disk) (path : String) : IO Disk := do
  let parts := pathParts path
  let ways := (List.range parts.length).map fun n => "/".intercalate (parts.take (n + 1))
  (ways.filter (· ≠ "")).foldlM (probe content) disk

def probeDatabase (disk : Disk) (name : String) : IO Disk := do
  let disk ← probeWay .text disk name
  match Db.Address.parse name with
  | .ok a => probeWay fileOfDatabase disk (disk.locate a.path).path
  | .error _ => return disk

/-- What an invocation looks at: first the settings and documents, then the databases that the
settings name. -/
def lookAround (i : Invocation) : IO Surroundings := do
  let environment ← readEnvironment [Settings.fileVariable, "HOME", "XDG_CONFIG_HOME"]
  let workingDirectory := ((← IO.currentDir).toString.splitOn "/").filter (· ≠ "")
  let candidates := i.config.toList ++ (environment.text? Settings.fileVariable).toList ++
    [Settings.localFile] ++ (Settings.userFile? environment).toList
  let disk ← (candidates ++ i.command.documents).foldlM (probeWay .text) { workingDirectory }
  match (Surroundings.mk environment disk).settings i.config with
  | .error _ => return ⟨environment, disk⟩
  | .ok settings =>
    let referenced ← readEnvironment ((pathsOf settings).flatMap referencesOf)
    let environment := environment ++ referenced
    let paths := i.command.databases ++
      (pathsOf settings).filterMap fun path => (environment.expand path).toOption
    return ⟨environment, ← paths.foldlM probeDatabase disk⟩

def runInPlace (args : List String) : IO Report := do
  match Invocation.ofArguments args with
  | .error _ => return run ⟨[], {}⟩ args
  | .ok i => return run (← lookAround i) args

end QueryBoard.CommandLine

def main (args : List String) : IO UInt32 := do
  let report ← QueryBoard.CommandLine.runInPlace args
  IO.print report.stdout
  IO.eprint report.stderr
  return report.code.toUInt32
