import OpcodeCatalog.SystemError
import OpcodeCatalog.Text.Utf8

/-!
# File systems

A tree of directories and files, as far as reading a file needs it.  A path is walked name by name
from the root or from the working directory: `.` stays, `..` goes up, and every other name has to
exist in a directory.

Main definitions:

* `FileSystem` — the entries of the tree, and the working directory;
* `FileSystem.makeFile`, `FileSystem.makeDirectory` — a tree with one more entry;
* `FileSystem.resolve` — the place that a path leads to;
* `FileSystem.read` — the content of the file at a path.
-/

set_option autoImplicit false

namespace OpcodeCatalog

/-- A place in the tree, as the names on the way from the root. -/
abbrev Location := List Bytes

/-- What stands at a place. -/
inductive Node where
  | file (content : Bytes)
  | directory
  deriving DecidableEq

/-- Why a path gives no content. -/
inductive ReadError where
  /-- The path has a byte that no name can have. -/
  | nulInPath
  | system (e : SystemError)
  deriving DecidableEq

/-- The reason in words. -/
def ReadError.reason : ReadError → Text
  | .nulInPath => "file name contained an unexpected NUL byte".toList
  | .system e => e.text

/-- A tree.  Of two entries for one place the first counts, and all places above an entry are
directories. -/
structure FileSystem where
  working : Location
  entries : List (Location × Node)

/-! ### Paths -/

namespace Path

/-- The byte between two names. -/
def separator : UInt8 := 0x2F

/-- The longest name, in bytes. -/
def maxNameLength : Nat := 255

/-- The longest path, in bytes. -/
def maxLength : Nat := 4095

/-- The name of the directory itself. -/
def here : Bytes := Utf8.ofString "."

/-- The name of the directory above. -/
def above : Bytes := Utf8.ofString ".."

/-- Puts a byte in front of bytes that are already cut at separators. -/
def consByte (b : UInt8) (names : List Bytes) : List Bytes :=
  if b = separator then [] :: names
  else
    match names with
    | [] => [[b]]
    | name :: rest => (b :: name) :: rest

/-- The names between the separators.  Some may be empty. -/
def split (path : Bytes) : List Bytes := path.foldr consByte [[]]

/-- The names to walk.  Separators in a row count as one, and one at the end asks for a directory,
as the name of the directory itself does. -/
def names (path : Bytes) : List Bytes :=
  let found := (split path).filter (· ≠ [])
  if path.getLast? = some separator then found ++ [here] else found

end Path

namespace FileSystem

/-! ### Entries -/

/-- An empty working directory, in a tree of which only the null device is known besides. -/
def empty : FileSystem :=
  let working := ["tmp", "work"].map Utf8.ofString
  ⟨working, [(working, .directory), (["dev", "null"].map Utf8.ofString, .file [])]⟩

/-- What stands at a place, if anything does. -/
def node? (fs : FileSystem) (place : Location) : Option Node :=
  match fs.entries.lookup place with
  | some node => some node
  | none =>
    if place = [] ∨ fs.entries.any fun entry => place.isPrefixOf entry.1 then some .directory
    else none

/-- Where the walk along a path begins. -/
def origin (fs : FileSystem) (path : Bytes) : Location :=
  if path.head? = some Path.separator then [] else fs.working

/-- The place one name further, whether or not anything stands there. -/
def move (place : Location) (name : Bytes) : Location :=
  if name = Path.here then place
  else if name = Path.above then place.dropLast
  else place ++ [name]

/-- The tree with a node at the place of a path. -/
def make (fs : FileSystem) (path : Bytes) (node : Node) : FileSystem :=
  { fs with entries := ((Path.names path).foldl move (fs.origin path), node) :: fs.entries }

/-- The tree with a file at a path. -/
def makeFile (fs : FileSystem) (path content : Bytes) : FileSystem := fs.make path (.file content)

/-- The tree with a directory at a path. -/
def makeDirectory (fs : FileSystem) (path : Bytes) : FileSystem := fs.make path .directory

/-! ### Reading -/

/-- Walks from a place along the names. -/
def walk (fs : FileSystem) (place : Location) : List Bytes → Except SystemError Location
  | [] => .ok place
  | name :: rest =>
    if fs.node? place ≠ some .directory then .error .notADirectory
    else if name = Path.here ∨ name = Path.above then fs.walk (move place name) rest
    else if Path.maxNameLength < name.length then .error .nameTooLong
    else if fs.node? (move place name) = none then .error .noSuchEntry
    else fs.walk (move place name) rest

/-- The place that a path leads to. -/
def resolve (fs : FileSystem) (path : Bytes) : Except SystemError Location :=
  if path = [] then .error .noSuchEntry
  else if Path.maxLength < path.length then .error .nameTooLong
  else fs.walk (fs.origin path) (Path.names path)

/-- The content of the file at a path. -/
def read (fs : FileSystem) (path : Bytes) : Except ReadError Bytes :=
  if 0 ∈ path then .error .nulInPath
  else
    match fs.resolve path with
    | .error e => .error (.system e)
    | .ok place =>
      match fs.node? place with
      | some (.file content) => .ok content
      | _ => .error (.system .isADirectory)

end FileSystem

end OpcodeCatalog
