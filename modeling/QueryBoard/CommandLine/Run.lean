import QueryBoard.CommandLine.Invocation
import QueryBoard.Json.Printer
import QueryBoard.Response.Wire
import QueryBoard.Schema.Wire
import QueryBoard.Source.Registry
import QueryBoard.Store.Tables
import QueryBoard.Widget.Wire

/-!
# Running commands

A run reads the settings, then does what its command says.  Results go to the standard output, and
what keeps a run from its result goes to the standard error.  Only the source that a command names
is opened.
-/

set_option autoImplicit false

namespace QueryBoard.CommandLine

/-- What a run leaves: an exit code and the texts it wrote. -/
structure Report where
  code : UInt8 := 0
  stdout : String := ""
  stderr : String := ""
deriving DecidableEq, Repr

inductive CommandError where
  | read (path : String) (e : FileError)
  | json (path : String)
  | compile (e : CompileError)
  | settings (e : SettingsError)
  | registry (e : RegistryError)
  | schema (e : SchemaError)
  | store (e : StoreError)
  | database (e : Db.DbError)
deriving DecidableEq, Repr

def CommandError.message : CommandError → String
  | .read path e => "Error reading file '" ++ path ++ "': " ++ e.message
  | .json path => "Invalid JSON in '" ++ path ++ "'"
  | .compile e => "Compilation error: " ++ e.message
  | .settings e => e.message
  | .registry e => e.message
  | .schema e => e.message
  | .store e => e.message
  | .database e => "Failed to open database: " ++ e.message

/-- What a command prints, and whether it did what it was asked for. -/
structure Output where
  text : String
  isOk : Bool := true

def Output.json (j : Json) : Output := { text := j.pretty ++ "\n" }

/-- What a run finds around it. -/
structure Surroundings where
  environment : Environment
  disk : Disk

namespace Surroundings

def readJson {α : Type} (s : Surroundings) (read : Document → Decoded α) (path : String) :
    Except CommandError α :=
  match s.disk.readText path with
  | .error e => .error (.read path e)
  | .ok text =>
    match Document.decodeText read text with
    | .ok a => .ok a
    | .error _ => .error (.json path)

def settings (s : Surroundings) (config : Option String) : Except SettingsError Settings :=
  match config with
  | some path => Settings.ofFile path (s.disk.content? path)
  | none => Settings.load s.environment s.disk.content?

/-- Sources of which only one is open. -/
def openSource (s : Surroundings) (settings : Settings) (id : String) :
    Except CommandError Sources := do
  let connection ← ((settings.source id).bind (·.connection s.environment)).mapError .settings
  (Sources.openPath {} s.disk id connection.path).mapError .registry

def openStore (s : Surroundings) (settings : Settings) : Except CommandError TableStore := do
  let path ← (settings.resolvedStorePath s.environment).mapError .settings
  (TableStore.openPath s.disk path).mapError .store

def schema (s : Surroundings) : SchemaSource → Except CommandError SchemaLookup
  | .empty => .ok (Catalog.table [])
  | .tables path => do return Catalog.table (← s.readJson Catalog.ofDocument path)
  | .database path => do return (← (s.disk.storage path).mapError .database).table

end Surroundings

/-- A compiled query with its parameters, numbered from one, each in a comment of its own. -/
def listing (c : Compiled) : String :=
  let params := c.params.zipIdx.map fun (v, i) =>
    "-- " ++ toString (i + 1) ++ ": " ++ v.toJson.compact ++ "\n"
  c.text ++ "\n" ++ (if params.isEmpty then "" else "\n-- Parameters:\n") ++ String.join params

def Command.run (s : Surroundings) (settings : Settings) : Command → Except CommandError Output
  | .compile file dialect schema => do
    let q ← s.readJson Query.ofDocument file
    let c ← (q.compile dialect (← s.schema schema)).mapError .compile
    return { text := listing c }
  | .query file source => do
    let q ← s.readJson Query.ofDocument file
    let sources ← s.openSource settings source
    let (outcome, _) ← (sources.execute source q).mapError .registry
    return { Output.json outcome.response.toJson with isOk := outcome.response.isOk }
  | .tables source => do
    let sources ← s.openSource settings source
    let tables ← ((← (sources.storage source).mapError .registry).tables).mapError .schema
    return .json (.arr (tables.map Table.toJson))
  | .functions source => do
    let _ ← s.openSource settings source
    return .json functionsJson
  | .widgets id => do
    let store ← s.openStore settings
    match id with
    | some id => return .json (← (store.widget id).mapError .store).toJson
    | none => return .json (.arr ((← store.allWidgets.mapError .store).map Widget.toJson))
  | .dashboards id => do
    let store ← s.openStore settings
    match id with
    | some id => return .json (← (store.dashboard id).mapError .store).toJson
    | none => return .json (.arr ((← store.allDashboards.mapError .store).map Dashboard.toJson))

/-- The complaint about log settings, with which a run goes on without a log.  The format is looked
at before the level. -/
def logWarning (log : LogSettings) (verbose : Bool) : String :=
  let check : Except LogError Unit := do
    let _ ← LogFormat.parse log.format
    let _ ← LogLevel.effective log.level verbose
  match check with
  | .ok _ => ""
  | .error e => "Warning: logging disabled: " ++ e.message ++ "\n"

def versionText : String := "datapoint 0.1.0\n"

def usageText : String :=
  "Usage: datapoint [--config <path>] [-v] <command>\n" ++
  "\n" ++
  "Commands:\n" ++
  "  compile <file> [-d <dialect>] [--schema <path> | --database <path>]\n" ++
  "  query <file> -s <source>\n" ++
  "  tables -s <source>\n" ++
  "  functions -s <source>\n" ++
  "  widgets [--id <id>]\n" ++
  "  dashboards [--id <id>]\n"

def run (s : Surroundings) (args : List String) : Report :=
  match Invocation.ofArguments args with
  | .error .usage => { code := 2, stderr := usageText }
  | .error .help => { stdout := usageText }
  | .error .version => { stdout := versionText }
  | .ok i =>
    match s.settings i.config with
    | .error e => { code := 1, stderr := "Error loading config: " ++ e.message ++ "\n" }
    | .ok settings =>
      let warning := logWarning settings.log i.verbose
      match i.command.run s settings with
      | .ok output =>
        { code := if output.isOk then 0 else 1, stdout := output.text, stderr := warning }
      | .error e => { code := 1, stderr := warning ++ e.message ++ "\n" }

end QueryBoard.CommandLine
