import QueryBoard.Text.Hex
import QueryBoard.Text.Utf8

/-!
# Addresses of databases

A database is named by the path of its file, or by an address: `file:`, the path, and after a
question mark options with their values.  Options say whether the file may be changed or made, and
whether there is a file at all.  In an address a percent sign and two hexadecimal digits stand for a
byte, and a number sign ends what counts.
-/

set_option autoImplicit false

namespace QueryBoard.Db

/-- Why a name cannot be that of a database. -/
inductive AddressError where
  /-- A NUL character, with the number of bytes before it. -/
  | nul (position : Nat)
  | authority (name : String)
  | access (mode : String)
  /-- A mode that allows more than an earlier one. -/
  | refused (mode : String)
  | cache (mode : String)
  | fileSystem (name : String)
deriving DecidableEq, Repr

def AddressError.message : AddressError → String
  | .nul position => "nul byte found in provided data at position: " ++ toString position
  | .authority name => "invalid uri authority: " ++ name
  | .access mode => "no such access mode: " ++ mode
  | .refused mode => "access mode not allowed: " ++ mode
  | .cache mode => "no such cache mode: " ++ mode
  | .fileSystem name => "no such vfs: " ++ name

/-- What a connection asks of the file of a database. -/
inductive Access where
  | read
  | change
  /-- Reads and changes a file, which is made if it is missing. -/
  | make
  | memory
deriving DecidableEq, Repr

namespace Access

def parse? (mode : String) : Option Access :=
  [("ro", Access.read), ("rw", .change), ("rwc", .make), ("memory", .memory)].lookup mode

/-- How much is asked; what has no file asks for nothing. -/
def extent : Access → Nat
  | .memory => 0
  | .read => 1
  | .change => 2
  | .make => 3

/-- Whether an access may take the place of an earlier one. -/
def mayFollow (new old : Access) : Bool := old == .memory || new.extent ≤ old.extent

end Access

structure Address where
  /-- The path of the file; the empty path is that of none. -/
  path : String
  access : Access := .make
  fileSystem : String := "unix"
  /-- What is in memory may be had in common with other connections. -/
  isShared : Bool := false
  /-- Nothing else changes the file, so neither does the connection. -/
  isImmutable : Bool := false
deriving DecidableEq, Repr

/-- The file system that is kept in memory. -/
def memorySystem : String := "memdb"

namespace Address

/-- Whether the address names no file, but a database that lasts as long as there are connections to
it. -/
def isMemory (a : Address) : Bool :=
  a.path == "" || a.path == ":memory:" || a.access == .memory || a.fileSystem == memorySystem

/-- Whether a database in memory can be found by its path: one that says so, or one with a full path
in the file system that is kept in memory. -/
def isNamed (a : Address) : Bool :=
  let isFull := a.path != "/" && a.path.startsWith "/" || a.path != "\\" && a.path.startsWith "\\"
  a.path != "" && (a.isShared || a.access != .memory && a.fileSystem == memorySystem && isFull)

def isReadOnly (a : Address) : Bool :=
  a.access == .read ||
    (a.isImmutable && a.path != "" && a.path != ":memory:" && a.access != .memory)

/-! ## Reading an address -/

/-- The bytes of a part.  A byte zero ends it. -/
def bytes : List Char → List UInt8
  | [] => []
  | '%' :: a :: b :: rest =>
    match Text.hexValue? a, Text.hexValue? b with
    | some high, some low =>
      if high * 16 + low = 0 then [] else UInt8.ofNat (high * 16 + low) :: bytes rest
    | _, _ => '%'.toUInt8 :: bytes (a :: b :: rest)
  | c :: rest => (String.singleton c).toUTF8.toList ++ bytes rest

def decode (part : List Char) : String := Text.Utf8.lenient (bytes part)

/-- Cuts a text at the first of some characters, which is dropped. -/
def cut (c : Char) (cs : List Char) : List Char × List Char :=
  (cs.takeWhile (· ≠ c), (cs.dropWhile (· ≠ c)).drop 1)

/-- The options after a question mark, those without a name left out. -/
def options (cs : List Char) : List (String × String) :=
  ((cs.splitOn '&').map fun option =>
    let (name, value) := cut '=' option
    (decode name, decode value)).filter (·.1 ≠ "")

/-- The path and the options, without `file:` and without an authority, which can only be that of
this computer. -/
def withoutAuthority (cs : List Char) : Except AddressError (List Char) :=
  match cs with
  | '/' :: '/' :: rest =>
    let name := String.ofList (rest.takeWhile (· ≠ '/'))
    if name = "" ∨ name = "localhost" then .ok (rest.dropWhile (· ≠ '/'))
    else .error (.authority name)
  | _ => .ok cs

/-- Whether the value of an option means yes: a word for it, or a number that is no multiple of
256. -/
def isTrue (value : String) : Bool :=
  let digits := value.toList.takeWhile Char.isDigit
  if digits.isEmpty then
    ["on", "yes", "true"].contains (String.ofList (value.toList.map Char.toLower))
  else
    let n := digits.foldl (fun n c => n * 10 + (c.toNat - '0'.toNat)) 0
    n < Nat.pow 2 31 && n % 256 != 0

def fileSystems : List String := ["unix", "unix-dotfile", "unix-excl", "unix-none"]

def withOption (a : Address) (o : String × String) : Except AddressError Address :=
  match o.1 with
  | "mode" =>
    match Access.parse? o.2 with
    | none => .error (.access o.2)
    | some access =>
      if access.mayFollow a.access then .ok { a with access } else .error (.refused o.2)
  | "cache" =>
    if o.2 = "shared" ∨ o.2 = "private" then .ok { a with isShared := o.2 == "shared" }
    else .error (.cache o.2)
  | _ => .ok a

/-- Takes in the file system, the last one that is named. -/
def withFileSystem (a : Address) (options : List (String × String)) :
    Except AddressError Address :=
  match options.reverse.lookup "vfs" with
  | none => .ok a
  | some name =>
    if name ∈ memorySystem :: fileSystems then .ok { a with fileSystem := name }
    else .error (.fileSystem name)

def parse (name : String) : Except AddressError Address := do
  if name.contains '\x00' then
    throw (.nul (String.ofList (name.toList.takeWhile (· ≠ '\x00'))).utf8ByteSize)
  else if name.startsWith "file:" then
    let (path, rest) := cut '?' (cut '#' (← withoutAuthority (name.toList.drop 5))).1
    let options := options rest
    let a ← options.foldlM withOption { path := decode path }
    let a ← a.withFileSystem options
    return { a with isImmutable := ((options.lookup "immutable").map isTrue).getD false }
  else return { path := name }

end Address

end QueryBoard.Db
