import QueryBoard.Settings.Connection
import QueryBoard.Settings.Log
import QueryBoard.Text.Utf8
import QueryBoard.Toml.Reader

/-!
# Settings

Where the store is, which sources there are, and what is logged.  Paths may refer to environment
variables; they are expanded when a path is used, not when the settings are read.
-/

set_option autoImplicit false

namespace QueryBoard

structure SourceSettings where
  /-- A name for people. -/
  name : String := ""
  driver : String
  path : String
deriving DecidableEq, Repr

structure LogSettings where
  level : String := "info"
  format : String := "pretty"
deriving DecidableEq, Repr

structure Settings where
  storePath : String := "datapoint.db"
  /-- The sources in the order of their ids. -/
  sources : List (String × SourceSettings) := []
  log : LogSettings := {}
deriving DecidableEq, Repr

inductive SettingsError where
  | notFound (path : String)
  /-- The file is no text. -/
  | unreadable (path : String)
  | invalid (path : String)
  | undefinedVariable (name : String)
  | unknownSource (id : String)
  /-- A driver name, in lower case. -/
  | unsupportedDriver (name : String)
deriving DecidableEq, Repr

def SettingsError.message : SettingsError → String
  | .notFound path => "config file " ++ path ++ " does not exist"
  | .unreadable path => "cannot read " ++ path ++ ": stream did not contain valid UTF-8"
  | .invalid path => "invalid config in " ++ path
  | .undefinedVariable name => "environment variable " ++ name ++ " is not set"
  | .unknownSource id => "source not found: " ++ id
  | .unsupportedDriver name => "unknown driver: " ++ name ++ ". Supported: sqlite"

namespace Toml

def toText? : Toml → Option String
  | .str s => some s
  | _ => none

/-- The fields of a section with the given names; numbers in other fields must be in range.  An
array gives them by position, as far as it goes, and a date is a section without any of them. -/
def section? (names : List String) : Toml → Option Fields
  | .table _ fields =>
    if fieldsInRange (fields.filter fun e => e.1 ∉ names) then some fields else none
  | .array _ items => some (names.zip items)
  | .datetime _ => some []
  | _ => none

/-- The text of a field, which may be missing. -/
def text? (fields : Fields) (name : String) : Option (Option String) :=
  match fields.lookup name with
  | none => some none
  | some t => t.toText?.map some

end Toml

namespace Settings

def expandPath (env : Environment) (path : String) : Except SettingsError String :=
  match env.expand path with
  | .ok s => .ok s
  | .error name => .error (.undefinedVariable name)

def resolvedStorePath (s : Settings) (env : Environment) : Except SettingsError String :=
  expandPath env s.storePath

def source (s : Settings) (id : String) : Except SettingsError SourceSettings :=
  match s.sources.lookup id with
  | some source => .ok source
  | none => .error (.unknownSource id)

end Settings

/-- How to reach a source.  The driver is looked at before the path. -/
def SourceSettings.connection (s : SourceSettings) (env : Environment) :
    Except SettingsError Connection := do
  let driver ← match Driver.parse s.driver with
    | .ok d => pure d
    | .error name => throw (.unsupportedDriver name)
  return { driver, path := ← Settings.expandPath env s.path }

def SourceSettings.ofToml? (t : Toml) : Option SourceSettings := do
  let fields ← t.section? ["name", "driver", "path"]
  let name ← Toml.text? fields "name"
  let driver ← (← Toml.text? fields "driver")
  let path ← (← Toml.text? fields "path")
  return { name := name.getD "", driver, path }

def LogSettings.ofToml? (t : Toml) : Option LogSettings := do
  let fields ← t.section? ["level", "format"]
  let level ← Toml.text? fields "level"
  let format ← Toml.text? fields "format"
  return { level := level.getD "info", format := format.getD "pretty" }

namespace Settings

def storePath? (t : Toml) : Option String := do
  let path ← Toml.text? (← t.section? ["path"]) "path"
  return path.getD "datapoint.db"

/-- The sources of their section, put in the order of their ids. -/
def sources? : Toml → Option (List (String × SourceSettings))
  | .table _ fields => do
    let sources ← fields.mapM fun e => do return (e.1, ← SourceSettings.ofToml? e.2)
    return sources.mergeSort fun a b => a.1 ≤ b.1
  | _ => none

/-- The settings of a document.  Sections that are missing are at their defaults, and what is not
known is skipped. -/
def ofToml? (fields : Toml.Fields) : Option Settings := do
  let fields ← (Toml.table .header fields).section? ["store", "sources", "log"]
  let read {α : Type} (name : String) (default : α) (f : Toml → Option α) : Option α :=
    match fields.lookup name with
    | some t => f t
    | none => some default
  return {
    storePath := ← read "store" "datapoint.db" storePath?
    sources := ← read "sources" [] sources?
    log := ← read "log" {} LogSettings.ofToml? }

/-- The settings in a file; no content means that there is no such file. -/
def ofFile (path : String) (content : Option (List UInt8)) : Except SettingsError Settings :=
  match content with
  | none => .error (.notFound path)
  | some bytes =>
    match Text.Utf8.strict? bytes with
    | none => .error (.unreadable path)
    | some text =>
      match (Toml.parse? text).bind ofToml? with
      | some s => .ok s
      | none => .error (.invalid path)

def fileVariable : String := "DATAPOINT_CONFIG"

def localFile : String := "datapoint.toml"

def joinPath (dir name : String) : String :=
  if dir.endsWith "/" then dir ++ name else dir ++ "/" ++ name

/-- The settings file of the user, in a configured directory if that is an absolute path, else
below the home directory.  A directory whose path is not UTF-8 holds no file that is known of. -/
def userFile? (env : Environment) : Option String :=
  let slash : UInt8 := '/'.toUInt8
  let configured := (env.get? "XDG_CONFIG_HOME").filter (·.head? == some slash)
  let home := (env.get? "HOME").filter (!·.isEmpty)
  let directory := match configured with
    | some bytes => Text.Utf8.strict? bytes
    | none => (home.bind Text.Utf8.strict?).map (joinPath · ".config")
  directory.map (joinPath · "datapoint/config.toml")

/-- The settings of a run: of the file that the environment names, else of the first file that
exists in the working directory or for the user, else the defaults. -/
def load (env : Environment) (file : String → Option (List UInt8)) :
    Except SettingsError Settings :=
  match env.get? fileVariable with
  | some bytes =>
    match Text.Utf8.strict? bytes with
    | some path => ofFile path (file path)
    | none => .error (.notFound (Text.Utf8.lenient bytes))
  | none =>
    match (localFile :: (userFile? env).toList).find? fun path => (file path).isSome with
    | some path => ofFile path (file path)
    | none => .ok {}

end Settings

end QueryBoard
