/-!
# Options among arguments

Arguments are options, which start with a hyphen, and words.  An option has a long name after two
hyphens and perhaps a letter after one; letters may share a hyphen.  The value of an option comes
after an equals sign or as the next argument, which then must not look like an option, and after a
letter also without anything between.  After two hyphens alone only words follow.

Faults are found from left to right, and so is the wish for help.  What stands as an argument of its
own is looked at when the next one comes, or at the end.
-/

set_option autoImplicit false

namespace QueryBoard.CommandLine

inductive ValueRule where
  | text
  | path
  | oneOf (names : List String)
deriving DecidableEq, Repr

def ValueRule.accepts : ValueRule → String → Bool
  | .text, _ => true
  | .path, s => !s.isEmpty
  | .oneOf names, s => names.contains s

structure OptionRule where
  name : String
  letter : Option Char := none
  /-- What its value may be, if it has one. -/
  value : Option ValueRule := some .text
deriving DecidableEq, Repr

structure Grammar where
  options : List OptionRule
  words : List ValueRule := []
deriving DecidableEq, Repr

/-- Why there is nothing to run. -/
inductive Stop where
  | usage
  | help
  | version
deriving DecidableEq, Repr

structure Given where
  /-- The options by name, each with its value, which is empty if it takes none. -/
  options : List (String × String) := []
  words : List String := []
deriving DecidableEq, Repr

namespace Given

def value? (g : Given) (name : String) : Option String := g.options.lookup name

def has (g : Given) (name : String) : Bool := (g.value? name).isSome

/-- Takes in an option without a value.  No option may be given twice, and asking for help or for
the version ends the reading. -/
def addFlag (g : Given) (name : String) : Except Stop Given :=
  if name = "help" then .error .help
  else if name = "version" then .error .version
  else if g.has name then .error .usage
  else .ok { g with options := (name, "") :: g.options }

def addValue (g : Given) (name : String) (rule : ValueRule) (value : String) : Except Stop Given :=
  if rule.accepts value && !g.has name then .ok { g with options := (name, value) :: g.options }
  else .error .usage

def addWord (g : Given) (rule : ValueRule) (word : String) : Except Stop Given :=
  if rule.accepts word then .ok { g with words := g.words ++ [word] } else .error .usage

end Given

/-- What has been read but not looked at. -/
inductive Waiting where
  /-- An option whose value comes next. -/
  | option (name : String) (rule : ValueRule)
  | value (name : String) (rule : ValueRule) (value : String)
  | word (rule : ValueRule) (word : String)
deriving DecidableEq, Repr

structure Reading where
  given : Given := {}
  waiting : Option Waiting := none
deriving DecidableEq, Repr

def Reading.settle (r : Reading) : Except Stop Given :=
  match r.waiting with
  | none => .ok r.given
  | some (.option _ _) => .error .usage
  | some (.value name rule v) => r.given.addValue name rule v
  | some (.word rule w) => r.given.addWord rule w

/-- Whether an argument cannot be the value of the option before it. -/
def looksLikeOption (arg : String) : Bool := arg.startsWith "-" && arg != "-"

namespace Grammar

def readLetters (grammar : Grammar) (r : Reading) : List Char → Except Stop Reading
  | [] => .ok r
  | c :: rest =>
    match grammar.options.find? (·.letter == some c) with
    | none => .error .usage
    | some option => do
      let given ← r.settle
      match option.value, rest with
      | none, _ => grammar.readLetters { given := ← given.addFlag option.name } rest
      | some rule, [] => return { given, waiting := some (.option option.name rule) }
      | some rule, '=' :: value =>
        return { given := ← given.addValue option.name rule (String.ofList value) }
      | some rule, value =>
        return { given := ← given.addValue option.name rule (String.ofList value) }

def readLong (grammar : Grammar) (r : Reading) (cs : List Char) : Except Stop Reading :=
  let name := String.ofList (cs.takeWhile (· ≠ '='))
  match grammar.options.find? (·.name == name) with
  | none => .error .usage
  | some option => do
    let given ← r.settle
    match option.value, cs.dropWhile (· ≠ '=') with
    | none, [] => return { given := ← given.addFlag name }
    | none, _ => throw .usage
    | some rule, [] => return { given, waiting := some (.option name rule) }
    | some rule, _ :: value =>
      return { given := ← given.addValue name rule (String.ofList value) }

/-- Reads a word, unless there are enough of them. -/
def readWord (grammar : Grammar) (r : Reading) (word : String) : Except Stop Reading := do
  let given ← r.settle
  match grammar.words[given.words.length]? with
  | some rule => return { given, waiting := some (.word rule word) }
  | none => throw .usage

/-- Reads arguments, up to the first word if that is a command.  Returns what is left. -/
def read (grammar : Grammar) (untilWord : Bool) :
    Reading → List String → Except Stop (Reading × List String)
  | r, [] => .ok (r, [])
  | r, arg :: rest =>
    match r.waiting, arg.toList with
    | some (.option name rule), _ =>
      if looksLikeOption arg then .error .usage
      else grammar.read untilWord { r with waiting := some (.value name rule arg) } rest
    | _, ['-', '-'] => do return (← rest.foldlM grammar.readWord r, [])
    | _, '-' :: '-' :: cs => do grammar.read untilWord (← grammar.readLong r cs) rest
    | _, '-' :: c :: cs => do grammar.read untilWord (← grammar.readLetters r (c :: cs)) rest
    | _, _ =>
      if untilWord then .ok (r, arg :: rest)
      else do grammar.read untilWord (← grammar.readWord r arg) rest

end Grammar

end QueryBoard.CommandLine
