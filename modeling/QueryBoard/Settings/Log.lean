import QueryBoard.Json.Number
import QueryBoard.Text.Case

/-!
# Log levels and formats
-/

set_option autoImplicit false

namespace QueryBoard

/-- How much is logged; each level includes the ones before it. -/
inductive LogLevel where
  | off
  | error
  | warn
  | info
  | debug
  | trace
deriving DecidableEq, Repr

inductive LogFormat where
  | pretty
  | json
deriving DecidableEq, Repr

inductive LogError where
  | level (s : String)
  | format (s : String)
deriving DecidableEq, Repr

def LogError.message : LogError → String
  | .level s => "unknown log level: " ++ s
  | .format s => "unknown log format: " ++ s ++ ". Supported: pretty, json"

namespace LogLevel

def all : List LogLevel := [.off, .error, .warn, .info, .debug, .trace]

def name : LogLevel → String
  | .off => "off"
  | .error => "error"
  | .warn => "warn"
  | .info => "info"
  | .debug => "debug"
  | .trace => "trace"

def rank : LogLevel → Nat
  | .off => 0
  | .error => 1
  | .warn => 2
  | .info => 3
  | .debug => 4
  | .trace => 5

/-- The number that decimal digits name, after an optional plus sign. -/
def number? (cs : List Char) : Option Nat :=
  let ds := match cs with
    | '+' :: rest => rest
    | cs => cs
  if ds.isEmpty || !ds.all Char.isDigit then none else some (Json.digitsValue ds)

/-- A level by its rank or by its name in any case; the empty text means errors. -/
def parse (s : String) : Except LogError LogLevel :=
  let found := match number? s.toList with
    | some n => all[n]?
    | none => if s.isEmpty then some .error else all.find? (·.name == Text.asciiLower s)
  match found with
  | some l => .ok l
  | none => .error (.level s)

/-- The level that holds for a run, which is at least `debug` for a verbose one. -/
def effective (s : String) (verbose : Bool) : Except LogError LogLevel := do
  let l ← parse s
  return if verbose && l.rank < debug.rank then .debug else l

end LogLevel

namespace LogFormat

def name : LogFormat → String
  | .pretty => "pretty"
  | .json => "json"

def parse (s : String) : Except LogError LogFormat :=
  let name := Text.asciiLower s
  if name = "pretty" ∨ name = "text" ∨ name = "" then .ok .pretty
  else if name = "json" then .ok .json
  else .error (.format s)

end LogFormat

end QueryBoard
