import QueryBoard.Execution.Basic

/-!
# Files

A disk holds texts and databases in directories.  A path leads from the working directory, or from
the root if it starts with a slash.  A text is found by going through directories: every part of the
path but the last has to lead to one.  The path of a database is shortened first, so that a part and
the two dots after it cancel out; only a file on the way is an obstacle then.
-/

set_option autoImplicit false

namespace QueryBoard

inductive File where
  | text (bytes : List UInt8)
  | database (db : Db.Database)
deriving Repr

inductive FileError where
  | missing
  | notDirectory
  | isDirectory
  | notText
  | exists
  | nameTooLong
  | nul
deriving DecidableEq, Repr

def FileError.message : FileError → String
  | .missing => "No such file or directory (os error 2)"
  | .notDirectory => "Not a directory (os error 20)"
  | .isDirectory => "Is a directory (os error 21)"
  | .notText => "stream did not contain valid UTF-8"
  | .exists => "File exists (os error 17)"
  | .nameTooLong => "File name too long (os error 36)"
  | .nul => "file name contained an unexpected NUL byte"

/-- The names on the way from the root. -/
abbrev Location := List String

inductive Place where
  | file (f : File)
  | directory
  | nothing
deriving Repr

def pathParts (path : String) : List String := path.splitOn "/"

def maxNameSize : Nat := 255

def maxPathSize : Nat := 4095

/-- The greatest number of bytes in the path of a database while it is shortened. -/
def maxDatabasePathSize : Nat := 511

/-- The greatest number of bytes in the shortened path of a database, with which there is room for
the names of files beside it. -/
def maxShortenedPathSize : Nat := 504

/-- What is added to the name of a database for the file that keeps what was before a change. -/
def journalEnding : String := "-journal"

def Location.follow (l : Location) (part : String) : Location :=
  if part = "" ∨ part = "." then l else if part = ".." then l.dropLast else l ++ [part]

def Location.path (l : Location) : String := String.join (l.map ("/" ++ ·))

structure Disk where
  files : List (Location × File) := []
  /-- Directories that need not hold a file. -/
  directories : List Location := []
  workingDirectory : Location := []

namespace Disk

def start (d : Disk) (path : String) : Location :=
  if path.startsWith "/" then [] else d.workingDirectory

/-- The location that a path names, whatever is on the way to it. -/
def locate (d : Disk) (path : String) : Location :=
  (pathParts path).foldl Location.follow (d.start path)

/-- Whether a location is a directory: the root, a listed one, or one on the way to a file. -/
def isDirectory (d : Disk) (l : Location) : Bool :=
  let within (m : Location) : Bool := l.isPrefixOf m
  l.isEmpty || within d.workingDirectory || d.directories.any within ||
    d.files.any fun f => f.1 != l && within f.1

def place (d : Disk) (l : Location) : Place :=
  match d.files.lookup l with
  | some f => .file f
  | none => if d.isDirectory l then .directory else .nothing

/-! ## Going through directories -/

/-- One part of a path, which has to be looked up in a directory. -/
def enter (d : Disk) (l : Location) (part : String) : Except FileError Location :=
  match d.place l with
  | .nothing => .error .missing
  | .file _ => .error .notDirectory
  | .directory =>
    if maxNameSize < part.utf8ByteSize then .error .nameTooLong else .ok (l.follow part)

/-- The location that parts of a path lead to.  There need not be anything. -/
def walk (d : Disk) (start : Location) (parts : List String) : Except FileError Location :=
  if parts.any (·.contains '\x00') then .error .nul
  else if maxPathSize < ("/".intercalate parts).utf8ByteSize then .error .nameTooLong
  else parts.foldlM d.enter start

def open? (d : Disk) (path : String) : Except FileError File := do
  if path = "" then throw .missing
  match d.place (← d.walk (d.start path) (pathParts path)) with
  | .file f => return f
  | .directory => throw .isDirectory
  | .nothing => throw .missing

/-- The bytes of a regular file, as far as they are known; those of a database are no text. -/
def content? (d : Disk) (path : String) : Option (List UInt8) :=
  match d.open? path with
  | .ok (.text bytes) => some bytes
  | .ok (.database _) => some [0xFF]
  | .error _ => none

def readText (d : Disk) (path : String) : Except FileError String := do
  match ← d.open? path with
  | .database _ => throw .notText
  | .text bytes =>
    match Text.Utf8.strict? bytes with
    | some s => return s
    | none => throw .notText

/-! ## Databases -/

/-- Whether a location or one on the way to it is a file. -/
def isBlocked (d : Disk) (l : Location) : Bool := d.files.any fun f => f.1.isPrefixOf l

/-- One part of the path of a database, unless a file is in the way or a name is too long. -/
def shorten (d : Disk) (l : Location) (part : String) : Option Location :=
  let next := l.follow part
  if next.length ≤ l.length then some next
  else if d.isBlocked l || maxDatabasePathSize < next.path.utf8ByteSize ||
      (d.isDirectory l && maxNameSize < part.utf8ByteSize) then none
  else some next

/-- The location of a database, which is not the root. -/
def locateDatabase? (d : Disk) (path : String) : Option Location :=
  ((pathParts path).foldlM d.shorten (d.start path)).filter fun l =>
    !l.isEmpty && l.path.utf8ByteSize ≤ maxShortenedPathSize

/-- What a connection leads to.  Connections to one file, or to one database in memory that is found
by its name, have it in common. -/
inductive Target where
  | file (l : Location)
  | shared (fileSystem path : String)
  /-- A database in memory of its own. -/
  | own
deriving DecidableEq, Repr

def Target.of (a : Db.Address) : Target :=
  if a.isNamed then .shared a.fileSystem a.path else .own

def refusal? (a : Db.Address) : Target → Option Db.DbError
  | .file l =>
    if a.isReadOnly then some .readOnly
    else if maxNameSize < (l.getLastD "" ++ journalEnding).utf8ByteSize then some .noJournal
    else none
  | .shared _ _ | .own => if a.isReadOnly then some .readOnly else none

def target (d : Disk) (name : String) : Except Db.DbError (Db.Address × Target) := do
  let a ← (Db.Address.parse name).mapError .address
  if a.isMemory then return (a, .of a)
  match d.locateDatabase? a.path with
  | none => throw (.cannotOpen name)
  | some l => return (a, .file l)

/-- What the first connection to a target finds, given the name that leads to it. -/
def find (d : Disk) (name : String) (a : Db.Address) (t : Target) : Except Db.DbError Storage :=
  let new : Storage := .database { refusal := refusal? a t }
  match t with
  | .shared _ _ | .own => .ok new
  | .file l =>
    match d.place l with
    | .file (.database db) => .ok (.database { db with refusal := refusal? a t })
    -- A single byte is not looked at yet: the file counts as empty.
    | .file (.text bytes) => .ok (if bytes.length < 2 then new else .other)
    | .directory => .error (if a.access = .read then .unreadable else .cannotOpen name)
    | .nothing =>
      if a.access = .make && d.isDirectory l.dropLast then .ok new else .error (.cannotOpen name)

/-- What a connection to a named database finds. -/
def storage (d : Disk) (name : String) : Except Db.DbError Storage := do
  let (a, t) ← d.target name
  d.find name a t

/-! ## Making directories -/

def makeDirectory (d : Disk) (start : Location) (parts : List String) : Except FileError Disk := do
  let l ← d.walk start parts
  match d.place l with
  | .file _ => throw .exists
  | .directory => return d
  | .nothing => return { d with directories := l :: d.directories }

/-- Makes a directory with those that are missing on the way to it.  The parts of its path come
last to first. -/
def makeDirectories (d : Disk) (start : Location) : List String → Except FileError Disk
  | [] => .ok d
  | part :: above =>
    match d.makeDirectory start (part :: above).reverse with
    | .error .missing => do
      (← makeDirectories d start above).makeDirectory start (part :: above).reverse
    | r => r

/-- Makes the directory in a path, if there is more than a name in it. -/
def makeParent (d : Disk) (path : String) : Except FileError Disk :=
  let parts := (pathParts path).filter fun part => part ≠ "" ∧ part ≠ "."
  d.makeDirectories (d.start path) (parts.reverse.drop 1)

end Disk

end QueryBoard
