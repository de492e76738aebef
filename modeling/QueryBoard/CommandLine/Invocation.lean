import QueryBoard.CommandLine.Options
import QueryBoard.Sql.Dialect

/-!
# Invocations

What a run is asked to do.  The options that hold for every command may stand before or after its
name, and the later place wins.
-/

set_option autoImplicit false

namespace QueryBoard.CommandLine

/-- Where a command that compiles finds the schema. -/
inductive SchemaSource where
  | empty
  | tables (path : String)
  | database (path : String)
deriving DecidableEq, Repr

inductive Command where
  | compile (file : String) (dialect : Sql.Dialect) (schema : SchemaSource)
  | query (file source : String)
  | tables (source : String)
  | functions (source : String)
  | widgets (id : Option String)
  | dashboards (id : Option String)
deriving DecidableEq, Repr

structure Invocation where
  config : Option String
  verbose : Bool
  command : Command
deriving DecidableEq, Repr

def commonRules : List OptionRule :=
  [{ name := "config", value := some .path },
    { name := "verbose", letter := 'v', value := none },
    { name := "help", letter := 'h', value := none }]

def outerGrammar : Grammar :=
  { options := { name := "version", letter := 'V', value := none } :: commonRules }

def sourceRule : OptionRule := { name := "source", letter := 's' }

def commandGrammars : List (String × Grammar) :=
  [("compile",
      { options := [
          { name := "dialect", letter := 'd', value := some (.oneOf ["sqlite", "postgres"]) },
          { name := "schema", value := some .path }, { name := "database", value := some .path }]
        words := [.path] }),
    ("query", { options := [sourceRule], words := [.path] }),
    ("tables", { options := [sourceRule] }),
    ("functions", { options := [sourceRule] }),
    ("widgets", { options := [{ name := "id" }] }),
    ("dashboards", { options := [{ name := "id" }] })]

def innerGrammar? (name : String) : Option Grammar :=
  (commandGrammars.lookup name).map fun g => { g with options := g.options ++ commonRules }

/-- A dialect by its exact name. -/
def dialectNamed? (name : String) : Option Sql.Dialect :=
  [Sql.Dialect.sqlite, .postgres].find? (·.name == name)

namespace Given

def required (g : Given) (name : String) : Except Stop String :=
  match g.value? name with
  | some v => .ok v
  | none => .error .usage

def file (g : Given) : Except Stop String :=
  match g.words with
  | word :: _ => .ok word
  | [] => .error .usage

end Given

def SchemaSource.ofGiven (g : Given) : Except Stop SchemaSource :=
  match g.value? "schema", g.value? "database" with
  | none, none => .ok .empty
  | some path, none => .ok (.tables path)
  | none, some path => .ok (.database path)
  | some _, some _ => .error .usage

def Command.ofGiven (name : String) (g : Given) : Except Stop Command := do
  if name = "compile" then
    let dialect := ((g.value? "dialect").bind dialectNamed?).getD .sqlite
    return .compile (← g.file) dialect (← SchemaSource.ofGiven g)
  else if name = "query" then return .query (← g.file) (← g.required "source")
  else if name = "tables" then return .tables (← g.required "source")
  else if name = "functions" then return .functions (← g.required "source")
  else if name = "widgets" then return .widgets (g.value? "id")
  else return .dashboards (g.value? "id")

/-- Whether the words after the command `help` name something that there is help on: everything, or
one command. -/
def isHelpTopic : List String → Bool
  | [] => true
  | [word] => word == "help" || (commandGrammars.lookup word).isSome
  | _ => false

/-- Reads arguments.  Help may also be asked for by the word `help`, perhaps with the name of a
command.  What waits before the name of a command is looked at last. -/
def Invocation.ofArguments (args : List String) : Except Stop Invocation := do
  let (reading, rest) ← outerGrammar.read true {} args
  match rest with
  | [] => throw .usage
  | name :: rest =>
    if name = "help" then throw (if isHelpTopic rest then .help else .usage)
    match innerGrammar? name with
    | none => throw .usage
    | some grammar =>
      let inner ← (← grammar.read false {} rest).1.settle
      let command ← Command.ofGiven name inner
      let outer ← reading.settle
      return {
        config := (inner.value? "config").or (outer.value? "config")
        verbose := outer.has "verbose" || inner.has "verbose"
        command }

end QueryBoard.CommandLine
